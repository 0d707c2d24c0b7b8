import SpaceLink.Bytes

/-!
# The frame error control field

Every frame type ends with the same optional check: a cyclic redundancy code of 16 bits with the
generator x^16 + x^12 + x^5 + 1, a register that starts with all bits set, the most significant
bit of each byte first, and no final inversion. `crc16` runs the register over the bits of the
protected bytes; `fecfValid` compares it with the two bytes that follow them.
-/

namespace SpaceLink

namespace Crc16

/-- The generator below its leading term. -/
def generator : BitVec 16 := 0x1021#16

/-- Shifts one bit in: the register is divided by the generator when the bit leaving it differs
from the bit arriving. -/
def step (register : BitVec 16) (bit : Bool) : BitVec 16 :=
  let shifted := register <<< 1
  if register.msb != bit then shifted ^^^ generator else shifted

def run (register : BitVec 16) (sequence : List Bool) : BitVec 16 := sequence.foldl step register

theorem run_append (register : BitVec 16) (s t : List Bool) :
    run register (s ++ t) = run (run register s) t := by
  simp [run]

end Crc16

def fecfLength : Nat := 2

/-- The check of the bytes, as a number of 16 bits. -/
def crc16 (d : Bytes) : Nat := (Crc16.run 0xffff#16 (Bytes.toBits d)).toNat

theorem crc16_lt (d : Bytes) : crc16 d < 65536 := BitVec.isLt _

def appendFecf (d : Bytes) : Bytes := d ++ Bytes.ofNatBE fecfLength (crc16 d)

/-- The last two bytes hold the check of all bytes before them. -/
def fecfValid (frame : Bytes) : Bool :=
  fecfLength ≤ frame.length &&
    crc16 (frame.take (frame.length - fecfLength)) ==
      Bytes.toNatBE (frame.drop (frame.length - fecfLength))

end SpaceLink
