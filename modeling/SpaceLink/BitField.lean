/-!
# Bit fields

Headers pack numbers and flags into words. `bits` and `flag` read a field by the position of its
lowest bit; `pack` writes fields side by side, first field highest, each reduced to its width.
-/

namespace SpaceLink

/-- The number in the `width` bits of `word` whose lowest is bit `lo`. -/
def bits (word lo width : Nat) : Nat := (word >>> lo) % (1 <<< width)

theorem bits_lt (word lo width : Nat) : bits word lo width < 1 <<< width := by
  rw [bits, Nat.one_shiftLeft]
  exact Nat.mod_lt _ (Nat.two_pow_pos _)

def flag (word lo : Nat) : Bool := word.testBit lo

/-- The word whose fields, given as width and value from the highest down, stand side by side. -/
def pack (fields : List (Nat × Nat)) : Nat :=
  fields.foldl (fun word (width, value) => (word <<< width) + value % (1 <<< width)) 0

end SpaceLink
