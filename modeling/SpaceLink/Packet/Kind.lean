import SpaceLink.Packet.Space
import SpaceLink.Packet.Encapsulation

/-!
# Delimiting packets

Both kinds of packet declare their length in their header. All that the reassembly of packets
needs to know is here: how many bytes have to be there before the length can be read, and that
length.
-/

namespace SpaceLink

inductive PacketKind
  | space
  | encapsulation
deriving DecidableEq, Repr

namespace PacketKind

/-- How many bytes of a packet that begins with `d` make its header. For an encapsulation packet
the answer for no bytes at all is one, the byte that tells the rest. -/
def headerLength : PacketKind → Bytes → Nat
  | space, _ => SpacePacketHeader.length
  | encapsulation, [] => 1
  | encapsulation, first :: _ => EncapsulationHeader.lengthFromFirst first

theorem headerLength_pos (kind : PacketKind) (d : Bytes) : 0 < kind.headerLength d := by
  cases kind with
  | space => exact Nat.zero_lt_succ 5
  | encapsulation =>
    cases d with
    | nil => exact Nat.one_pos
    | cons first _ => exact EncapsulationHeader.formatLength_pos _

/-- The packet length that the header at the start of `d` declares; `none` if the header is not
complete. -/
def declaredLength? : PacketKind → Bytes → Option Nat
  | space, d => (SpacePacketHeader.decode d).map (·.totalLength)
  | encapsulation, d => (EncapsulationHeader.decode d).map (·.packetLength)

end PacketKind

end SpaceLink
