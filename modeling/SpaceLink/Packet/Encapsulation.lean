import SpaceLink.Bytes
import SpaceLink.BitField

/-!
# Encapsulation packets

The lowest two bits of the first byte select one of four header formats, of 1, 2, 4 or 8 bytes.
The header length is thus known from the first byte on, the packet length once the header is
complete. A packet with a header of one byte is that byte.
-/

namespace SpaceLink

/-- The header of an encapsulation packet. Fields that the format lacks are zero. -/
structure EncapsulationHeader where
  version : Nat
  protocolId : Nat
  lengthOfLength : Nat
  /-- In headers of 4 and 8 bytes. -/
  userDefined : Nat
  /-- In headers of 4 and 8 bytes. -/
  protocolIdExtension : Nat
  /-- In headers of 8 bytes. -/
  ccsdsDefined : Nat
  /-- Length of the whole packet, header included; 1 with a header of one byte. -/
  packetLength : Nat
deriving DecidableEq, Repr

namespace EncapsulationHeader

def packetVersion : Nat := 7

def idleProtocolId : Nat := 0

/-- Length of the longest header format in bytes. -/
def maxLength : Nat := 8

def formatLength (format : Nat) : Nat := 1 <<< bits format 0 2

theorem formatLength_pos (format : Nat) : 0 < formatLength format := by
  rw [formatLength, Nat.one_shiftLeft]
  exact Nat.two_pow_pos _

def lengthFromFirst (first : UInt8) : Nat := formatLength first.toNat

/-- The header as far as the first byte gives it, which is all of it if that is the whole
header. -/
def ofFirst (first : UInt8) : EncapsulationHeader where
  version := bits first.toNat 5 3
  protocolId := bits first.toNat 2 3
  lengthOfLength := bits first.toNat 0 2
  userDefined := 0
  protocolIdExtension := 0
  ccsdsDefined := 0
  packetLength := 1

/-- Reads the header of a packet; `none` if there are fewer bytes than its format has. -/
def decode : Bytes → Option EncapsulationHeader
  | [] => none
  | first :: rest =>
    match bits first.toNat 0 2, rest with
    | 0, _ => some (ofFirst first)
    | 1, l0 :: _ => some { ofFirst first with packetLength := l0.toNat }
    | 2, second :: l1 :: l0 :: _ =>
      some { ofFirst first with
        userDefined := bits second.toNat 4 4
        protocolIdExtension := bits second.toNat 0 4
        packetLength := Bytes.toNatBE [l1, l0] }
    | 3, second :: c1 :: c0 :: l3 :: l2 :: l1 :: l0 :: _ =>
      some { ofFirst first with
        userDefined := bits second.toNat 4 4
        protocolIdExtension := bits second.toNat 0 4
        ccsdsDefined := Bytes.toNatBE [c1, c0]
        packetLength := Bytes.toNatBE [l3, l2, l1, l0] }
    | _, _ => none

@[simp] theorem decode_nil : decode [] = none := by rw [decode]

/-- Writes the header in its format, each field reduced to its width. -/
def encode (h : EncapsulationHeader) : Bytes :=
  let first := (pack [(3, h.version), (3, h.protocolId), (2, h.lengthOfLength)]).toUInt8
  let second := (pack [(4, h.userDefined), (4, h.protocolIdExtension)]).toUInt8
  first :: match bits h.lengthOfLength 0 2 with
    | 0 => []
    | 1 => Bytes.ofNatBE 1 h.packetLength
    | 2 => second :: Bytes.ofNatBE 2 h.packetLength
    | _ => second :: (Bytes.ofNatBE 2 h.ccsdsDefined ++ Bytes.ofNatBE 4 h.packetLength)

def headerLength (h : EncapsulationHeader) : Nat := formatLength h.lengthOfLength

def isIdle (h : EncapsulationHeader) : Bool := h.protocolId == idleProtocolId

end EncapsulationHeader

end SpaceLink
