import Mathlib.Algebra.GroupWithZero.Nat
import SpaceLink.Proofs.BitField

/-!
# Words and all their fields

`fieldsOf` reads all fields of a word, given their widths from the highest down, and is the inverse
of `pack`: a word is put together from its fields again (`pack_fieldsOf`), and the fields of a
packed word are the packed ones, each reduced to its width (`fieldsOf_pack`). Clearing the spare
bits of a byte leaves the fields beside them as they are (`bits_and_of_full`, `flag_and_of_set`).
-/

namespace SpaceLink

/-- The fields of a word with their widths, from the highest down. -/
def fieldsOf (word : Nat) : (widths : List Nat) → List (Nat × Nat)
  | [] => []
  | width :: widths => (width, bits word widths.sum width) :: fieldsOf word widths

/-- A word with one more field below its others. -/
def pushField (word : Nat) (field : Nat × Nat) : Nat :=
  (word <<< field.1) + field.2 % (1 <<< field.1)

theorem pushField_eq (word width value : Nat) :
    pushField word (width, value) = word * 2 ^ width + value % 2 ^ width := by
  rw [pushField, Nat.shiftLeft_eq, Nat.one_shiftLeft]

theorem pack_eq_foldl (fields : List (Nat × Nat)) : pack fields = fields.foldl pushField 0 := rfl

/-! ## A word from its fields -/

/-- Two fields side by side are one. -/
theorem bits_append (word lo width width' : Nat) :
    bits word (lo + width') width * 2 ^ width' + bits word lo width' =
      bits word lo (width + width') := by
  rw [bits_eq, bits_eq, bits_eq, Nat.pow_add, ← Nat.div_div_eq_div_mul, Nat.add_comm width,
    Nat.pow_add, Nat.mod_mul, Nat.mul_comm, Nat.add_comm]

theorem foldl_fieldsOf (word acc : Nat) (widths : List Nat) :
    (fieldsOf word widths).foldl pushField acc =
      acc * 2 ^ widths.sum + bits word 0 widths.sum := by
  induction widths generalizing acc with
  | nil => simp [fieldsOf, bits_zero, Nat.mod_one]
  | cons width widths ih =>
    have hlt := bits_lt word widths.sum width
    rw [Nat.one_shiftLeft] at hlt
    have hsplit := bits_append word 0 width widths.sum
    rw [Nat.zero_add] at hsplit
    rw [fieldsOf, List.foldl_cons, ih, pushField_eq, Nat.mod_eq_of_lt hlt, List.sum_cons, ← hsplit,
      Nat.add_mul, Nat.mul_assoc, ← Nat.pow_add, Nat.add_assoc]

/-- A word is its fields side by side. -/
theorem pack_fieldsOf (widths : List Nat) {word : Nat} (h : word < 2 ^ widths.sum) :
    pack (fieldsOf word widths) = word := by
  rw [pack_eq_foldl, foldl_fieldsOf, Nat.zero_mul, Nat.zero_add, bits_zero, Nat.mod_eq_of_lt h]

/-- A byte is its fields side by side. -/
theorem toUInt8_pack_fieldsOf (widths : List Nat) (h : widths.sum = 8) (b : UInt8) :
    (pack (fieldsOf b.toNat widths)).toUInt8 = b := by
  have hlt : b.toNat < 2 ^ widths.sum := h ▸ b.toNat_lt
  rw [pack_fieldsOf widths hlt]
  exact UInt8.ofNat_toNat

/-! ## The fields of a packed word -/

/-- What is above the fields stays there. -/
theorem foldl_pushField_div (acc : Nat) (fields : List (Nat × Nat)) :
    fields.foldl pushField acc / 2 ^ (fields.map Prod.fst).sum = acc := by
  induction fields generalizing acc with
  | nil => simp
  | cons field fields ih =>
    obtain ⟨width, value⟩ := field
    have hlt := Nat.mod_lt value (Nat.two_pow_pos width)
    rw [List.foldl_cons, List.map_cons, List.sum_cons, Nat.add_comm width, Nat.pow_add,
      ← Nat.div_div_eq_div_mul, ih, pushField_eq, Nat.mul_comm acc,
      Nat.mul_add_div (Nat.two_pow_pos width), Nat.div_eq_of_lt hlt, Nat.add_zero]

theorem pack_lt (fields : List (Nat × Nat)) : pack fields < 2 ^ (fields.map Prod.fst).sum := by
  have h := foldl_pushField_div 0 fields
  rw [← pack_eq_foldl] at h
  exact Nat.lt_of_div_eq_zero (Nat.two_pow_pos _) h

theorem fieldsOf_foldl (acc : Nat) (fields : List (Nat × Nat)) :
    fieldsOf (fields.foldl pushField acc) (fields.map Prod.fst) =
      fields.map fun field => (field.1, field.2 % 2 ^ field.1) := by
  induction fields generalizing acc with
  | nil => rfl
  | cons field fields ih =>
    obtain ⟨width, value⟩ := field
    rw [List.foldl_cons, List.map_cons, List.map_cons, fieldsOf, ih, bits_eq, foldl_pushField_div,
      pushField_eq, Nat.mul_comm, Nat.mul_add_mod, Nat.mod_mod]

/-- The fields of a word are those that it was packed from, each reduced to its width. -/
theorem fieldsOf_pack (fields : List (Nat × Nat)) :
    fieldsOf (pack fields) (fields.map Prod.fst) =
      fields.map fun field => (field.1, field.2 % 2 ^ field.1) :=
  fieldsOf_foldl 0 fields

/-- A number that is too large for its field loses its highest bits. -/
example : pack [(1, 1), (3, 2), (4, 0x13)] = 0xa3 ∧
    fieldsOf 0xa3 [1, 3, 4] = [(1, 1), (3, 2), (4, 3)] := by
  decide

/-! ## Flags as fields of one bit -/

theorem toNat_flag_eq_bits (word lo : Nat) : (flag word lo).toNat = bits word lo 1 := by
  rw [toNat_flag, bits_eq, Nat.pow_one]

theorem flag_eq_of_bits {word lo : Nat} {b : Bool} (h : bits word lo 1 = b.toNat % 2 ^ 1) :
    flag word lo = b := by
  rw [bits_eq, Nat.pow_one, Nat.mod_eq_of_lt b.toNat_lt] at h
  exact flag_eq_of_bit h

/-! ## Words in bytes -/

/-- Written in bytes, a number keeps the bits that these have. -/
theorem Bytes.toNatBE_ofNatBE_bits (len n : Nat) : toNatBE (ofNatBE len n) = n % 2 ^ (8 * len) := by
  rw [toNatBE_ofNatBE_mod, Nat.pow_mul]

/-- Digits beyond the written ones do not matter. -/
theorem Bytes.ofNatBE_mod (len n : Nat) : ofNatBE len (n % 256 ^ len) = ofNatBE len n := by
  rw [← toNatBE_ofNatBE_mod, ofNatBE_toNatBE (length_ofNatBE len n)]

/-- Fields that fill a byte are written in one. -/
theorem toNat_pack {fields : List (Nat × Nat)} (h : (fields.map Prod.fst).sum = 8) :
    (pack fields).toUInt8.toNat = pack fields := by
  have hlt := pack_lt fields
  rw [h] at hlt
  exact (toNat_toUInt8 _).trans (Nat.mod_eq_of_lt hlt)

/-- Fields that fill bytes are written in them. -/
theorem toNatBE_pack {fields : List (Nat × Nat)} {len : Nat}
    (h : (fields.map Prod.fst).sum = 8 * len) :
    Bytes.toNatBE (Bytes.ofNatBE len (pack fields)) = pack fields := by
  rw [Bytes.toNatBE_ofNatBE_bits, ← h, Nat.mod_eq_of_lt (pack_lt fields)]

/-- Bytes are their fields side by side. -/
theorem Bytes.ofNatBE_pack_fieldsOf (widths : List Nat) {d : Bytes}
    (h : widths.sum = 8 * d.length) :
    ofNatBE d.length (pack (fieldsOf (toNatBE d) widths)) = d := by
  have hlt : toNatBE d < 2 ^ widths.sum := by
    rw [h, Nat.pow_mul]
    exact toNatBE_lt rfl
  rw [pack_fieldsOf widths hlt, ofNatBE_toNatBE rfl]

theorem Bytes.toNatBE_two_div (b0 b1 : UInt8) : toNatBE [b0, b1] / 2 ^ 8 = b0.toNat := by
  have hb := b1.toNat_lt
  simp only [toNatBE, List.foldl]
  omega

/-- The fields within the first byte of a word. -/
theorem bits_toNatBE_two (b0 b1 : UInt8) (lo width : Nat) :
    bits (Bytes.toNatBE [b0, b1]) (8 + lo) width = bits b0.toNat lo width := by
  rw [bits_eq, bits_eq, Nat.pow_add, ← Nat.div_div_eq_div_mul, Bytes.toNatBE_two_div]

theorem flag_toNatBE_two (b0 b1 : UInt8) (lo : Nat) :
    flag (Bytes.toNatBE [b0, b1]) (8 + lo) = flag b0.toNat lo := by
  rw [flag_eq, flag_eq, Nat.pow_add, ← Nat.div_div_eq_div_mul, Bytes.toNatBE_two_div]

/-! ## Spare bits -/

section

variable {word mask lo width : Nat}

theorem bits_and : bits (word &&& mask) lo width = bits word lo width &&& bits mask lo width := by
  rw [bits, bits, bits, Nat.one_shiftLeft, Nat.shiftRight_and_distrib, Nat.and_mod_two_pow]

/-- A field of which the mask has all bits is kept. -/
theorem bits_and_of_full (h : bits mask lo width = 2 ^ width - 1) :
    bits (word &&& mask) lo width = bits word lo width := by
  have hlt := bits_lt word lo width
  rw [Nat.one_shiftLeft] at hlt
  rw [bits_and, h, Nat.and_two_pow_sub_one_of_lt_two_pow hlt]

/-- A field of which the mask has no bit is cleared. -/
theorem bits_and_of_empty (h : bits mask lo width = 0) : bits (word &&& mask) lo width = 0 := by
  rw [bits_and, h, Nat.and_zero]

theorem flag_and_of_set (h : flag mask lo = true) : flag (word &&& mask) lo = flag word lo := by
  rw [flag, flag, Nat.testBit_and, ← flag, ← flag, h, Bool.and_true]

end

/-- The bytes with the spare bits of one of them cleared. -/
def Bytes.clear (i : Nat) (spare : UInt8) (d : Bytes) : Bytes := d.modify i (· &&& ~~~spare)

/-- In bytes with spare bits cleared, a field within these is zero. -/
theorem Bytes.bits_clear {i lo width : Nat} {spare : UInt8} {d : Bytes}
    (h : bits (~~~spare).toNat lo width = 0) :
    ∀ b ∈ (d.clear i spare)[i]?, bits b.toNat lo width = 0 := by
  intro b hb
  rw [clear, Option.mem_def, List.getElem?_modify_eq] at hb
  obtain ⟨b', -, rfl⟩ := Option.map_eq_some_iff.mp hb
  rw [UInt8.toNat_and]
  exact bits_and_of_empty h

theorem Bytes.take_clear (i : Nat) (spare : UInt8) (d : Bytes) (n : Nat) :
    (d.clear i spare).take n = clear i spare (d.take n) := by
  rw [clear, clear, List.take_modify]

end SpaceLink
