import SpaceLink.Bytes
import SpaceLink.BitField

/-!
# Space packets

Only the primary header, which is what delimits packets in a data zone.
-/

namespace SpaceLink

structure SpacePacketHeader where
  version : Nat
  typeFlag : Nat
  hasSecondaryHeader : Bool
  apid : Nat
  /-- Grouping; 3 for a packet on its own. -/
  sequenceFlags : Nat
  sequenceId : Nat
  /-- The number of bytes after the header, minus one. -/
  lengthMinusOne : Nat
deriving DecidableEq, Repr

namespace SpacePacketHeader

def length : Nat := 6

def idleApid : Nat := 0x7ff

/-- Reads the header of a packet; `none` if there are too few bytes. -/
def decode : Bytes → Option SpacePacketHeader
  | b0 :: b1 :: b2 :: b3 :: b4 :: b5 :: _ =>
    let identification := Bytes.toNatBE [b0, b1]
    let sequence := Bytes.toNatBE [b2, b3]
    some {
      version := bits identification 13 3
      typeFlag := bits identification 12 1
      hasSecondaryHeader := flag identification 11
      apid := bits identification 0 11
      sequenceFlags := bits sequence 14 2
      sequenceId := bits sequence 0 14
      lengthMinusOne := Bytes.toNatBE [b4, b5] }
  | _ => none

/-- Writes the header, each field reduced to its width. -/
def encode (h : SpacePacketHeader) : Bytes :=
  Bytes.ofNatBE 2 (pack [(3, h.version), (1, h.typeFlag), (1, h.hasSecondaryHeader.toNat),
      (11, h.apid)]) ++
    Bytes.ofNatBE 2 (pack [(2, h.sequenceFlags), (14, h.sequenceId)]) ++
    Bytes.ofNatBE 2 h.lengthMinusOne

/-- Length of the whole packet, header included. -/
def totalLength (h : SpacePacketHeader) : Nat := length + h.lengthMinusOne + 1

def isIdle (h : SpacePacketHeader) : Bool := h.apid == idleApid

end SpacePacketHeader

end SpaceLink
