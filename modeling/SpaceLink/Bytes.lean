/-!
# Byte strings

Frames, packets and their parts are byte strings. This file fixes the type, the cuts of a string by
offsets, what is written into one, and the two readings that the formats need: as a number, most
significant byte first (`Bytes.toNatBE`, `Bytes.ofNatBE`), and as the sequence of bits on the link
(`Bytes.toBits`).
-/

namespace SpaceLink

abbrev Bytes := List UInt8

namespace Bytes

/-- The `len` bytes that begin at offset `start`. -/
def slice (start len : Nat) (d : Bytes) : Bytes := (d.drop start).take len

theorem length_slice (start len : Nat) (d : Bytes) :
    (slice start len d).length = min len (d.length - start) := by
  simp [slice]

/-- The bytes from one offset up to another. -/
def between (a b : Nat) (d : Bytes) : Bytes := (d.take b).drop a

/-- The bytes from one offset up to another, if the offsets are in order and not beyond the end. -/
def between? (a b : Nat) (d : Bytes) : Option Bytes :=
  if a ≤ b ∧ b ≤ d.length then some (between a b d) else none

theorem between?_of_le {a b : Nat} {d : Bytes} (h : a ≤ b) (hb : b ≤ d.length) :
    between? a b d = some (between a b d) := if_pos ⟨h, hb⟩

theorem between?_slice {start len : Nat} {d : Bytes} (h : start + len ≤ d.length) :
    between? start (start + len) d = some (slice start len d) := by
  rw [between?_of_le (Nat.le_add_right _ _) h, between, slice, List.drop_take,
    Nat.add_sub_cancel_left]

theorem between?_length {start : Nat} {d : Bytes} (h : start ≤ d.length) :
    between? start d.length d = some (d.drop start) := by
  rw [between?_of_le h (Nat.le_refl _), between, List.take_length]

/-- Writes `part` from one offset up to another, if the offsets are not beyond the end and `part`
is as long as what it replaces. -/
def overwrite? (a b : Nat) (part d : Bytes) : Option Bytes :=
  if a ≤ b ∧ b ≤ d.length ∧ b - a = part.length then some (d.take a ++ part ++ d.drop b) else none

/-- The number that the bytes spell in base 256, most significant byte first. -/
def toNatBE (d : Bytes) : Nat := d.foldl (fun n b => n * 256 + b.toNat) 0

/-- The lowest `len` base 256 digits of a number, most significant first. -/
def ofNatBE : (len n : Nat) → Bytes
  | 0, _ => []
  | len + 1, n => ofNatBE len (n / 256) ++ [n.toUInt8]

@[simp] theorem length_ofNatBE (len n : Nat) : (ofNatBE len n).length = len := by
  induction len generalizing n with
  | zero => rfl
  | succ len ih => simp [ofNatBE, ih]

theorem toNatBE_append_singleton (d : Bytes) (b : UInt8) :
    toNatBE (d ++ [b]) = toNatBE d * 256 + b.toNat := by
  simp [toNatBE]

/-- The bits of one byte, most significant first. -/
def byteBits (b : UInt8) : List Bool :=
  [7, 6, 5, 4, 3, 2, 1, 0].map b.toNat.testBit

@[simp] theorem length_byteBits (b : UInt8) : (byteBits b).length = 8 := rfl

/-- The bits in the order in which the link carries them. -/
def toBits (d : Bytes) : List Bool := d.flatMap byteBits

@[simp] theorem toBits_nil : toBits [] = [] := rfl

@[simp] theorem toBits_cons (b : UInt8) (d : Bytes) : toBits (b :: d) = byteBits b ++ toBits d :=
  rfl

@[simp] theorem toBits_append (d e : Bytes) : toBits (d ++ e) = toBits d ++ toBits e := by
  simp [toBits]

end Bytes

end SpaceLink
