import SpaceLink.Channel.Frame
import SpaceLink.Channel.Reassembly
import SpaceLink.FrameCount

/-!
# Virtual channels

A `Channel` takes the frames of one virtual channel in the order in which they arrive and reports
what it finds in them as `Event`s: missing frames, and packets, data or bitstreams according to
its `AccessMode`. `Channel.process` takes one frame. What happens before an error stays done, so
its `Outcome` has the events and the channel afterwards in either case.
-/

namespace SpaceLink

inductive AccessMode
  | packet
  | encapsulation
  /-- The data field of every frame as it is, idle frames included. -/
  | data
  /-- Bitstreams, which only B_PDUs of AOS have. -/
  | bitstream
deriving DecidableEq, Repr

def AccessMode.name : AccessMode → String
  | .packet => "PACKET"
  | .encapsulation => "ENCAPSULATION"
  | .data => "DATA"
  | .bitstream => "BITSTREAM"

/-- What a channel reports about a frame. -/
inductive Event
  /-- The frame belongs to the channel. Precedes all else. -/
  | frameReceived
  | gapDetected (gap : Gap)
  /-- `complete` is false if the packet was cut off. -/
  | packetExtracted (kind : PacketKind) (packet : Bytes) (complete : Bool)
  | dataExtracted (data : Bytes)
  /-- The fewest bytes that hold the valid bits. -/
  | bitstreamExtracted (data : Bytes) (validBits : Nat)
deriving DecidableEq, Repr

structure Channel where
  vcid : Nat
  mode : AccessMode
  /-- Frames of other virtual channels are errors rather than ignored. -/
  strict : Bool := false
  lastCount? : Option Nat := none
  inFlight? : Option PartialPacket := none
  /-- Frames have been missed since the last one that was not idle. -/
  pendingGap : Bool := false
  /-- Numbers of the listeners that events go to, in order of registration. -/
  listeners : List Nat := []
deriving DecidableEq, Repr

/-- What comes of a frame: the channel afterwards, the events in order and whether the frame could
be used. -/
structure Outcome where
  channel : Channel
  events : List Event
  result : Except Error Unit

/-- A call of a listener, which is told the number of the channel. Where frames are missing there is
no frame to go with it. -/
structure Notification (F : Type) where
  listener : Nat
  vcid : Nat
  frame? : Option F
  event : Event
deriving DecidableEq, Repr

/-- The frame that listeners are told about with an event. -/
def Event.frame? {F : Type} (f : F) : Event → Option F
  | .gapDetected _ => none
  | .frameReceived | .packetExtracted .. | .dataExtracted _ | .bitstreamExtracted .. => some f

/-- Each event goes to every listener before the next event does. -/
def Outcome.deliveries {F : Type} (o : Outcome) (f : F) : List (Notification F) :=
  o.events.flatMap fun event => o.channel.listeners.map fun listener =>
    { listener, vcid := o.channel.vcid, frame? := event.frame? f, event }

namespace Channel

variable (c : Channel)

def register (listener : Nat) : Channel := { c with listeners := c.listeners ++ [listener] }

def withStrict (strict : Bool) : Channel := { c with strict }

def hasPendingPacket : Bool := c.inFlight?.isSome

/-- Forgets the packet in flight and the last count, so that the next frame is as the first. -/
def reset : Channel := { c with lastCount? := none, inFlight? := none, pendingGap := false }

variable {F : Type} [ChannelFrame F]

def gap? (f : F) : Option Gap :=
  if ChannelFrame.countChecked f then
    Gap.between? c.lastCount? (ChannelFrame.frameCount f) (ChannelFrame.countModulus F)
  else none

/-- Reports the packets that end in a frame. A gap closes the packet in flight; if the frame is
idle, that is left to the next one that is not. -/
def processPackets (kind : PacketKind) (f : F) (gap : Bool) : Outcome :=
  let gap := c.pendingGap || gap
  let report := List.map fun (p : Extracted) => Event.packetExtracted kind p.bytes p.complete
  if ChannelFrame.isIdle f then
    { channel := { c with pendingGap := gap }, events := [], result := .ok () }
  else
    let closed := if gap then (c.inFlight?.bind (·.close?)).toList else []
    let inFlight? := if gap then none else c.inFlight?
    match ChannelFrame.packetField f with
    | .error e =>
      { channel := { c with pendingGap := false, inFlight? }
        events := report closed
        result := .error e }
    | .ok (zone, start?) =>
      let (packets, inFlight?) := advance kind inFlight? zone start?
      { channel := { c with pendingGap := false, inFlight? }
        events := report (closed ++ packets)
        result := .ok () }

def processBitstream (f : F) : Outcome :=
  if ChannelFrame.isIdle f then { channel := c, events := [], result := .ok () }
  else if ChannelFrame.isSync f then { channel := c, events := [], result := .error .syncFlag }
  else match ChannelFrame.bitstream f with
    | .error e => { channel := c, events := [], result := .error e }
    | .ok (zone, validBits) =>
      { channel := c
        events := [.bitstreamExtracted (zone.take ((validBits + 7) / 8)) validBits]
        result := .ok () }

def processContents (f : F) (gap : Bool) : Outcome :=
  match c.mode with
  | .data =>
    { channel := c, events := [.dataExtracted (ChannelFrame.dataZone f)], result := .ok () }
  | .bitstream => c.processBitstream f
  | .packet => c.processPackets .space f gap
  | .encapsulation => c.processPackets .encapsulation f gap

def process (f : F) : Outcome :=
  let vcid := ChannelFrame.vcid f
  if vcid ≠ c.vcid then
    { channel := c
      events := []
      result := if c.strict then .error (.vcidMismatch c.vcid vcid) else .ok () }
  else
    let gap? := c.gap? f
    let counted := { c with lastCount? := some (ChannelFrame.frameCount f) }
    let outcome := counted.processContents f gap?.isSome
    { outcome with
      events := .frameReceived :: (gap?.toList.map .gapDetected ++ outcome.events) }

end Channel

end SpaceLink
