import SpaceLink.Packet.Kind

/-!
# Reassembly of packets

Packets are laid end to end through the packet zones of successive frames. A packet that does not
end in a zone is in flight until the next one (`PartialPacket`). With each zone comes the offset of
the first packet that starts in it, if one does. `advance` takes one zone: `PartialPacket.resume`
feeds the packet in flight with the bytes up to that offset, and `extract` cuts the packets from
there on. `PartialPacket.close?` is what becomes of a packet in flight when frames are missing.
-/

namespace SpaceLink

/-- A packet that started in an earlier frame and waits for more bytes. -/
structure PartialPacket where
  bytes : Bytes
  /-- The declared length, unknown until the header is complete. -/
  total? : Option Nat
deriving DecidableEq, Repr

/-- A packet as it is handed out. -/
structure Extracted where
  bytes : Bytes
  /-- The packet has its declared length; it has not been cut off. -/
  complete : Bool
deriving DecidableEq, Repr

/-- Moves bytes from the input behind the held ones until these have a complete header. Returns
the bytes then held and the rest of the input. -/
def fillHeader (kind : PacketKind) (held : Bytes) : (input : Bytes) → Bytes × Bytes
  | [] => (held, [])
  | b :: input =>
    if (kind.declaredLength? held).isSome then (held, b :: input)
    else fillHeader kind (held ++ [b]) input

namespace PartialPacket

/-- The packet as it is handed out when its continuation is lost: cut off, if it is known to be,
and not at all while its header is incomplete. -/
def close? (p : PartialPacket) : Option Extracted :=
  p.total?.map fun _ => { bytes := p.bytes, complete := false }

/-- Continues the packet with the bytes of `zone` up to `start?`, where another packet starts, or
with all of them. Returns the packet if it ends here and what is in flight otherwise.

A packet that another one interrupts is cut off, or dropped if its header is incomplete. A packet
that declares less than its own header is dropped. -/
def resume (kind : PacketKind) (p : PartialPacket) (zone : Bytes) (start? : Option Nat) :
    Option Extracted × Option PartialPacket :=
  let input := match start? with
    | some start => zone.take start
    | none => zone
  let (held, input) := if p.total?.isSome then (p.bytes, input) else fillHeader kind p.bytes input
  match p.total? <|> kind.declaredLength? held with
  | none => (none, if start?.isSome then none else some { bytes := held, total? := none })
  | some total =>
    if total < kind.headerLength held then (none, none)
    else
      let bytes := held ++ input.take (total - held.length)
      if total ≤ bytes.length then (some { bytes, complete := true }, none)
      else if start?.isSome then (some { bytes, complete := false }, none)
      else (none, some { bytes, total? := some total })

end PartialPacket

/-- Cuts a zone that begins with a packet into packets, and returns them with the one that the end
of the zone leaves in flight. Encapsulation packets of a single byte fill space and are skipped.
After a header that declares less than itself, packets cannot be found and the rest is dropped. -/
def extract (kind : PacketKind) : (zone : Bytes) → List Bytes × Option PartialPacket
  | [] => ([], none)
  | first :: rest =>
    let zone := first :: rest
    match kind.declaredLength? zone with
    | none => ([], some { bytes := zone, total? := none })
    | some total =>
      if kind.headerLength zone = 1 then extract kind rest
      else if total < kind.headerLength zone then ([], none)
      else if zone.length < total then ([], some { bytes := zone, total? := some total })
      else
        let (packets, inFlight?) := extract kind (zone.drop total)
        (zone.take total :: packets, inFlight?)
termination_by zone => zone.length
decreasing_by
  · simp
  · have := kind.headerLength_pos (first :: rest)
    simp only [zone, List.length_drop, List.length_cons] at *
    omega

/-- Takes one packet zone, in which the first packet starts at `start?`, and returns the packets
that end in it and the one in flight after it. -/
def advance (kind : PacketKind) (inFlight? : Option PartialPacket) (zone : Bytes)
    (start? : Option Nat) : List Extracted × Option PartialPacket :=
  let (resumed?, waiting?) := match inFlight? with
    | some p => p.resume kind zone start?
    | none => (none, none)
  match start? with
  | none => (resumed?.toList, waiting?)
  | some start =>
    let (packets, rest?) := extract kind (zone.drop start)
    (resumed?.toList ++ packets.map fun bytes => { bytes, complete := true }, rest?)

end SpaceLink
