import SpaceLink.Bytes
import SpaceLink.BitField

/-! # The primary header of AOS frames -/

namespace SpaceLink.Aos

/-- Length of the primary header in bytes, without its error control field. -/
def headerLength : Nat := 6

def version : Nat := 1

def idleVcid : Nat := 63

def countModulus : Nat := 0x1000000

def maxScid : Nat := 0xff

def maxVcid : Nat := 0x3f

def maxCount : Nat := 0xffffff

structure Header where
  version : Nat
  scid : Nat
  vcid : Nat
  vcFrameCount : Nat
  replay : Bool
  /-- The count and its cycle are in use. -/
  vcFrameCountUsage : Bool
  vcFrameCountCycle : Nat
deriving DecidableEq, Repr

namespace Header

/-- Reads the header at the start of the bytes; `none` if there are too few. -/
def decode : Bytes → Option Header
  | b0 :: b1 :: c2 :: c1 :: c0 :: b5 :: _ =>
    let identification := Bytes.toNatBE [b0, b1]
    let signalling := b5.toNat
    some {
      version := bits identification 14 2
      scid := bits identification 6 8
      vcid := bits identification 0 6
      vcFrameCount := Bytes.toNatBE [c2, c1, c0]
      replay := flag signalling 7
      vcFrameCountUsage := flag signalling 6
      vcFrameCountCycle := bits signalling 0 4 }
  | _ => none

/-- Writes the header, each field reduced to its width and spare bits zero. -/
def encode (h : Header) : Bytes :=
  Bytes.ofNatBE 2 (pack [(2, h.version), (8, h.scid), (6, h.vcid)]) ++
    Bytes.ofNatBE 3 h.vcFrameCount ++
    Bytes.ofNatBE 1 (pack [(1, h.replay.toNat), (1, h.vcFrameCountUsage.toNat), (2, 0),
      (4, h.vcFrameCountCycle)])

end Header

end SpaceLink.Aos
