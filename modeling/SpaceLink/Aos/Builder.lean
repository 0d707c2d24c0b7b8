import SpaceLink.Aos.Frame
import SpaceLink.Draft

/-!
# Building AOS frames

A `Builder` makes a frame of fixed length from the parameters that are used to decode it. It is
driven by `Step`s: a step that is refused has no effect, and `Builder.build` can be called at any
time. The header of an M_PDU or B_PDU is not counted as user data; it is set as a pointer.
-/

namespace SpaceLink.Aos

structure Builder where
  header : Header
  /-- How the built frame is read back. -/
  config : Config
  insertZone : Part
  pointer? : Option Nat
  draft : Draft
deriving DecidableEq, Repr

namespace Builder

def create (length : Nat) (config : Config) : Except Error Builder := do
  let draft ← Draft.plan length config.overhead (pduHeaderOf config.userDataType)
  return {
    header := {
      version, scid := 0, vcid := 0, vcFrameCount := 0, replay := false
      vcFrameCountUsage := false, vcFrameCountCycle := 0 }
    config := { config with strict := false }
    insertZone := Part.declare config.insertZoneLength
    pointer? := none
    draft }

inductive Step
  | scid (value : Nat)
  | vcid (value : Nat)
  | vcFrameCount (value : Nat)
  | replay (value : Bool)
  | vcFrameCountUsage (value : Bool)
  | vcFrameCountCycle (value : Nat)
  /-- May be a value that does not point. -/
  | firstHeaderPointer (value : Nat)
  /-- May be a value that does not count. -/
  | bitstreamDataPointer (value : Nat)
  /-- Makes an M_PDU or B_PDU one with idle data only; other frames are idle by their virtual
  channel alone. -/
  | idle
  | insertZone (data : Bytes)
  | ocf (data : Bytes)
  | securityHeader (data : Bytes)
  | securityTrailer (data : Bytes)
  /-- User data; what does not fit is dropped. -/
  | addData (data : Bytes)
deriving DecidableEq, Repr

def require (b : Builder) (type : UserDataType) : Except Error Unit :=
  if b.config.userDataType = type then .ok ()
  else .error (.userDataType none type b.config.userDataType)

/-- The pointer that marks idle data; types without a pointer keep what they have. -/
def idlePointer? (b : Builder) : Option Nat :=
  match b.config.userDataType with
  | .mpdu => some idlePointer
  | .bpdu => some idleBitstream
  | .vca | .idle => b.pointer?

def apply (b : Builder) : Step → Except Error Builder
  | .scid n => do
    checkRange .scid n maxScid
    return { b with header.scid := n }
  | .vcid n => do
    checkRange .vcid n maxVcid
    return { b with header.vcid := n }
  | .vcFrameCount n => do
    checkRange .vcFrameCount n maxCount
    return { b with header.vcFrameCount := n }
  | .replay v => return { b with header.replay := v }
  | .vcFrameCountUsage v => return { b with header.vcFrameCountUsage := v }
  | .vcFrameCountCycle n => do
    checkRange .vcFrameCountCycle n 0xf
    return { b with header.vcFrameCountCycle := n }
  | .firstHeaderPointer n => do
    b.require .mpdu
    checkRange .firstHeaderPointer n noPacketPointer
    return { b with pointer? := some n }
  | .bitstreamDataPointer n => do
    b.require .bpdu
    checkRange .bitstreamDataPointer n fullBitstream
    return { b with pointer? := some n }
  | .idle => return { b with pointer? := b.idlePointer? }
  | .insertZone d => return { b with insertZone := ← b.insertZone.set .insertZone d }
  | .ocf d => return { b with draft := ← b.draft.setOcf d }
  | .securityHeader d => return { b with draft := ← b.draft.setSecurityHeader d }
  | .securityTrailer d => return { b with draft := ← b.draft.setSecurityTrailer d }
  | .addData d => return { b with draft := b.draft.addData d }

def run (b : Builder) (steps : List Step) : Builder := attemptAll apply b steps

def pduHeader (b : Builder) : Except Error Bytes :=
  match b.config.userDataType, b.pointer? with
  | .mpdu, none => .error (.fieldUnset .firstHeaderPointer)
  | .bpdu, none => .error (.fieldUnset .bitstreamDataPointer)
  | .mpdu, some pointer | .bpdu, some pointer => .ok (Bytes.ofNatBE pduHeaderLength pointer)
  | .vca, _ | .idle, _ => .ok []

def fhec (b : Builder) : Bytes :=
  if b.config.fhecPresent then (fhec? b.header.encode).getD [] else []

/-- The frame, if no space is left and no part is missing. -/
def build (b : Builder) : Except Error Frame := do
  let contents ← b.draft.finish
  let insertZone ← b.insertZone.get .insertZone
  let pduHeader ← b.pduHeader
  Frame.decode (contents.toBytes (b.header.encode ++ b.fhec ++ insertZone) pduHeader) b.config

end Builder

end SpaceLink.Aos
