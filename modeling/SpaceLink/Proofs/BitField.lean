import Mathlib.Algebra.Group.Nat.Defs
import SpaceLink.Bytes
import SpaceLink.BitField

/-!
# Numbers in bytes and fields in words

Reading a number back from its bytes and the fields back from a word. `bits` and `flag` are division
and remainder (`bits_eq`, `flag_eq`), so that what `pack` puts together is taken apart by linear
arithmetic.
-/

namespace SpaceLink

theorem toNat_toUInt8 (n : Nat) : n.toUInt8.toNat = n % 256 := UInt8.toNat_ofNat'

theorem Bytes.toNatBE_ofNatBE_mod (len n : Nat) : toNatBE (ofNatBE len n) = n % 256 ^ len := by
  induction len generalizing n with
  | zero => rw [Nat.pow_zero, Nat.mod_one, ofNatBE, toNatBE, List.foldl_nil]
  | succ len ih =>
    rw [ofNatBE, toNatBE_append_singleton, ih, toNat_toUInt8, Nat.pow_succ, Nat.mul_comm (256 ^ _),
      Nat.mod_mul, Nat.mul_comm 256, Nat.add_comm]

/-- A number that fits comes back. -/
theorem Bytes.toNatBE_ofNatBE {len n : Nat} (h : n < 256 ^ len) : toNatBE (ofNatBE len n) = n := by
  rw [toNatBE_ofNatBE_mod, Nat.mod_eq_of_lt h]

/-- Bytes of positive number end in one. -/
private theorem Bytes.exists_concat {len : Nat} {d : Bytes} (h : d.length = len + 1) :
    ∃ e b, d = e ++ [b] ∧ e.length = len := by
  obtain rfl | ⟨e, b, rfl⟩ := List.eq_nil_or_concat d
  · cases h
  · rw [List.concat_eq_append] at h ⊢
    rw [List.length_append, List.length_singleton, Nat.add_right_cancel_iff] at h
    exact ⟨e, b, rfl, h⟩

theorem Bytes.toNatBE_lt {len : Nat} {d : Bytes} (h : d.length = len) : toNatBE d < 256 ^ len := by
  induction len generalizing d with
  | zero =>
    rw [List.eq_nil_of_length_eq_zero h]
    exact Nat.one_pos
  | succ len ih =>
    obtain ⟨e, b, rfl, he⟩ := exists_concat h
    have hb := b.toNat_lt
    have := ih he
    rw [toNatBE_append_singleton, Nat.pow_succ]
    omega

/-- Bytes come back from the number that they spell. -/
theorem Bytes.ofNatBE_toNatBE {len : Nat} {d : Bytes} (h : d.length = len) :
    ofNatBE len (toNatBE d) = d := by
  induction len generalizing d with
  | zero => rw [List.eq_nil_of_length_eq_zero h, ofNatBE]
  | succ len ih =>
    obtain ⟨e, b, rfl, he⟩ := exists_concat h
    have hb := b.toNat_lt
    have hhigh : (toNatBE e * 256 + b.toNat) / 256 = toNatBE e := by omega
    have hlow : (toNatBE e * 256 + b.toNat).toUInt8 = b := by
      rw [← UInt8.toNat_inj, toNat_toUInt8]
      omega
    rw [toNatBE_append_singleton, ofNatBE, hhigh, hlow, ih he]

theorem Bytes.toNatBE_two {n : Nat} (h : n < 65536) :
    toNatBE [(n / 256).toUInt8, n.toUInt8] = n := by
  show toNatBE (ofNatBE 2 n) = n
  exact toNatBE_ofNatBE h

theorem Bytes.toNatBE_three {n : Nat} (h : n < 16777216) :
    toNatBE [(n / 256 / 256).toUInt8, (n / 256).toUInt8, n.toUInt8] = n := by
  show toNatBE (ofNatBE 3 n) = n
  exact toNatBE_ofNatBE h

theorem bits_eq (word lo width : Nat) : bits word lo width = word / 2 ^ lo % 2 ^ width := by
  rw [bits, Nat.shiftRight_eq_div_pow, Nat.one_shiftLeft]

theorem bits_zero (word width : Nat) : bits word 0 width = word % 2 ^ width := by
  rw [bits_eq, Nat.pow_zero, Nat.div_one]

theorem flag_eq (word lo : Nat) : flag word lo = decide (word / 2 ^ lo % 2 = 1) :=
  Nat.testBit_eq_decide_div_mod_eq

theorem flag_eq_of_bit {word lo : Nat} {b : Bool} (h : word / 2 ^ lo % 2 = b.toNat) :
    flag word lo = b := by
  rw [flag_eq, h]
  cases b <;> rfl

theorem toNat_flag (word lo : Nat) : (flag word lo).toNat = word / 2 ^ lo % 2 := by
  rw [flag_eq]
  rcases Nat.mod_two_eq_zero_or_one (word / 2 ^ lo) with h | h <;> rw [h] <;> rfl

end SpaceLink
