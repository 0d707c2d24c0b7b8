import SpaceLink.Bytes
import SpaceLink.BitField

/-! # The primary header and the segment header of TC frames -/

namespace SpaceLink.Tc

def headerLength : Nat := 5

def version : Nat := 0

def maxLength : Nat := 1024

def countModulus : Nat := 256

def maxScid : Nat := 0x3ff

def maxVcid : Nat := 0x3f

/-- The type of a frame, as its two flags give it. -/
inductive FrameType
  /-- Sequence-controlled data. -/
  | ad
  /-- A control command without bypass, which the protocol does not use. -/
  | reserved
  /-- Expedited data. -/
  | bd
  /-- Expedited control command. -/
  | bc
deriving DecidableEq, Repr

structure Header where
  version : Nat
  bypass : Bool
  controlCommand : Bool
  scid : Nat
  vcid : Nat
  /-- Length of the whole frame. The link carries it reduced by one. -/
  frameLength : Nat
  frameSequenceNumber : UInt8
deriving DecidableEq, Repr

namespace Header

/-- Reads the header at the start of the bytes; `none` if there are too few. -/
def decode : Bytes → Option Header
  | b0 :: b1 :: b2 :: b3 :: b4 :: _ =>
    let identification := Bytes.toNatBE [b0, b1]
    let route := Bytes.toNatBE [b2, b3]
    some {
      version := bits identification 14 2
      bypass := flag identification 13
      controlCommand := flag identification 12
      scid := bits identification 0 10
      vcid := bits route 10 6
      frameLength := bits route 0 10 + 1
      frameSequenceNumber := b4 }
  | _ => none

/-- Writes the header, each field reduced to its width and spare bits zero. A length of 0 is
written as one of 1. -/
def encode (h : Header) : Bytes :=
  Bytes.ofNatBE 2 (pack [(2, h.version), (1, h.bypass.toNat), (1, h.controlCommand.toNat), (2, 0),
      (10, h.scid)]) ++
    Bytes.ofNatBE 2 (pack [(6, h.vcid), (10, h.frameLength - 1)]) ++
    [h.frameSequenceNumber]

def frameType (h : Header) : FrameType :=
  match h.bypass, h.controlCommand with
  | false, false => .ad
  | false, true => .reserved
  | true, false => .bd
  | true, true => .bc

end Header

/-! ## Segments -/

/-- The place of a segment in the data that was cut. -/
inductive SequenceFlag
  | continuing
  | first
  | last
  | unsegmented
deriving DecidableEq, Repr

namespace SequenceFlag

def ofBits : Nat → SequenceFlag
  | 0 => .continuing
  | 1 => .first
  | 2 => .last
  | _ => .unsegmented

def toBits : SequenceFlag → Nat
  | .continuing => 0
  | .first => 1
  | .last => 2
  | .unsegmented => 3

def startsPacket : SequenceFlag → Bool
  | .first | .unsegmented => true
  | .continuing | .last => false

end SequenceFlag

structure SegmentHeader where
  sequenceFlag : SequenceFlag
  /-- The multiplexer access point. -/
  mapId : Nat
deriving DecidableEq, Repr

namespace SegmentHeader

def length : Nat := 1

def maxMapId : Nat := 0x3f

def decode (b : UInt8) : SegmentHeader where
  sequenceFlag := .ofBits (bits b.toNat 6 2)
  mapId := bits b.toNat 0 6

/-- Writes the header, the access point reduced to its width. -/
def encode (h : SegmentHeader) : UInt8 :=
  (pack [(2, h.sequenceFlag.toBits), (6, h.mapId)]).toUInt8

end SegmentHeader

end SpaceLink.Tc
