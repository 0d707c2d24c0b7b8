import SpaceLink.Bytes
import SpaceLink.BitField

/-! # The primary header of TM frames -/

namespace SpaceLink.Tm

def headerLength : Nat := 6

def version : Nat := 0

def countModulus : Nat := 256

def maxScid : Nat := 0x3ff

def maxVcid : Nat := 7

/-- The first header pointer of a frame with idle data only. -/
def idlePointer : Nat := 0x7fe

/-- The first header pointer of a frame in which no packet starts. -/
def noPacketPointer : Nat := 0x7ff

/-- The counts fill a byte each; the other numbers are of other widths. -/
structure Header where
  version : Nat
  scid : Nat
  vcid : Nat
  ocfPresent : Bool
  mcFrameCount : UInt8
  vcFrameCount : UInt8
  secondaryHeaderPresent : Bool
  /-- The data field is not synchronised to packets, and the first header pointer means
  nothing. -/
  sync : Bool
  packetOrder : Bool
  segmentLengthId : Nat
  firstHeaderPointer : Nat
deriving DecidableEq, Repr

namespace Header

/-- Reads the header at the start of the bytes; `none` if there are too few. -/
def decode : Bytes → Option Header
  | b0 :: b1 :: mc :: vc :: b4 :: b5 :: _ =>
    let identification := Bytes.toNatBE [b0, b1]
    let status := Bytes.toNatBE [b4, b5]
    some {
      version := bits identification 14 2
      scid := bits identification 4 10
      vcid := bits identification 1 3
      ocfPresent := flag identification 0
      mcFrameCount := mc
      vcFrameCount := vc
      secondaryHeaderPresent := flag status 15
      sync := flag status 14
      packetOrder := flag status 13
      segmentLengthId := bits status 11 2
      firstHeaderPointer := bits status 0 11 }
  | _ => none

/-- Writes the header, each field reduced to its width. -/
def encode (h : Header) : Bytes :=
  Bytes.ofNatBE 2 (pack [(2, h.version), (10, h.scid), (3, h.vcid), (1, h.ocfPresent.toNat)]) ++
    [h.mcFrameCount, h.vcFrameCount] ++
    Bytes.ofNatBE 2 (pack [(1, h.secondaryHeaderPresent.toNat), (1, h.sync.toNat),
      (1, h.packetOrder.toNat), (2, h.segmentLengthId), (11, h.firstHeaderPointer)])

def pointerIsSentinel (h : Header) : Bool :=
  h.firstHeaderPointer == idlePointer || h.firstHeaderPointer == noPacketPointer

end Header

end SpaceLink.Tm
