import Mathlib.LinearAlgebra.Vandermonde
import Mathlib.Tactic.LinearCombination
import SpaceLink.Proofs.Checksum.Differences
import SpaceLink.Proofs.Checksum.Nibble

/-!
# The distance between headers with their checks

A header with its check is a polynomial that vanishes at the four roots of the generator
(`isCodeword_of_fhec?`). The differences between two of these, weighted by powers of their places,
add up to zero in four ways, one for each root. Four equations determine up to four unknowns, so
there are more differences than four or none (`eq_nil_of_sums`): any two headers with their checks
differ in five symbols (`IsCodeword.five_le_distance`).
-/

namespace SpaceLink

/-- Errors are known by as many sums over them, weighted by powers of their places. -/
theorem eq_nil_of_sums {R : Type} [CommRing R] [IsDomain R] {errors : List (R × R)} (first m : Nat)
    (hm : errors.length ≤ m) (hplaces : (errors.map Prod.snd).Nodup)
    (hne : ∀ e ∈ errors, e.1 ≠ 0 ∧ e.2 ≠ 0)
    (hsums : ∀ k < m, (errors.map fun e => e.1 * e.2 ^ (first + k)).sum = 0) : errors = [] := by
  have hinjective : Function.Injective fun j : Fin errors.length => errors[j.1].2 := by
    intro i j hij
    have hi : i.1 < (errors.map Prod.snd).length := by
      rw [List.length_map]
      exact i.isLt
    have hj : j.1 < (errors.map Prod.snd).length := by
      rw [List.length_map]
      exact j.isLt
    have hplace : (errors.map Prod.snd)[i.1] = (errors.map Prod.snd)[j.1] := by
      rw [List.getElem_map, List.getElem_map]
      exact hij
    exact Fin.ext (hplaces.getElem_inj_iff.mp hplace)
  have hzero : (fun j : Fin errors.length => errors[j.1].1 * errors[j.1].2 ^ first) = 0 := by
    refine Matrix.eq_zero_of_forall_pow_sum_mul_pow_eq_zero hinjective fun k => ?_
    rw [← hsums k (Nat.lt_of_lt_of_le k.isLt hm), ← Fin.sum_univ_fun_getElem]
    exact Finset.sum_congr rfl fun j _ => by rw [mul_assoc, ← pow_add]
  cases errors with
  | nil => rfl
  | cons e errors =>
    have he : e.1 * e.2 ^ first = 0 := congrFun hzero ⟨0, Nat.succ_pos _⟩
    obtain ⟨herror, hplace⟩ := hne e List.mem_cons_self
    exact absurd he (mul_ne_zero herror (pow_ne_zero _ hplace))

namespace Symbol

/-! ## Polynomials -/

/-- The value of a polynomial, given by its coefficients from the highest down. -/
def value (x : Symbol) : List Nibble → Symbol
  | [] => 0
  | s :: l => mk s * x ^ l.length + value x l

variable {x : Symbol}

theorem value_append (s t : List Nibble) :
    value x (s ++ t) = value x s * x ^ t.length + value x t := by
  induction s with
  | nil => rw [List.nil_append, value, zero_mul, zero_add]
  | cons a s ih =>
    rw [List.cons_append, value, value, ih, List.length_append, pow_add]
    ring

theorem value_zipWith_xor {s t : List Nibble} (h : s.length = t.length) :
    value x (List.zipWith (· ^^^ ·) s t) = value x s + value x t := by
  induction s generalizing t with
  | nil =>
    rw [List.eq_nil_of_length_eq_zero h.symm]
    exact (add_zero 0).symm
  | cons a s ih =>
    obtain ⟨b, t, rfl⟩ := List.exists_of_length_succ t h.symm
    have h : s.length = t.length := Nat.succ.inj h
    rw [List.zipWith_cons_cons, value, value, value, ih h, List.length_zipWith, ← h, Nat.min_self,
      mk_xor]
    ring

/-- The element x of the field, whose powers are all elements but zero. -/
def alpha : Symbol := ⟨2#4⟩

/-- The roots of the generator, for `k` below 4. -/
def root (k : Nat) : Symbol := alpha ^ (6 + k)

theorem generator_root :
    ∀ k < 4, root k ^ 4 + mk 8#4 * root k ^ 3 + mk 2#4 * root k ^ 2 + mk 8#4 * root k + 1 = 0 := by
  decide +kernel

/-- The powers that belong to the places of a word, the last of which has the power 0. -/
def places : Nat → List Symbol
  | 0 => []
  | n + 1 => alpha ^ n :: places n

theorem nodup_places : ∀ n ≤ 15, (places n).Nodup := by
  decide

/-- The symbols that are not zero, with their places. -/
def located : List Nibble → List (Symbol × Symbol)
  | [] => []
  | s :: l => if s = 0#4 then located l else (⟨s⟩, alpha ^ l.length) :: located l

theorem value_located (l : List Nibble) (i : Nat) :
    value (alpha ^ i) l = ((located l).map fun e => e.1 * e.2 ^ i).sum := by
  induction l with
  | nil => rfl
  | cons s l ih =>
    rw [value, ih, located]
    split
    · rw [‹s = 0#4›, mk_zero, zero_mul, zero_add]
    · rw [List.map_cons, List.sum_cons, ← pow_mul, ← pow_mul, Nat.mul_comm]

theorem located_sublist (l : List Nibble) :
    ((located l).map Prod.snd).Sublist (places l.length) := by
  induction l with
  | nil => exact .slnil
  | cons s l ih =>
    rw [located, List.length_cons, places]
    split
    · exact ih.cons _
    · exact ih.cons_cons _

theorem ne_zero_of_mem_located {l : List Nibble} {e : Symbol × Symbol} (h : e ∈ located l) :
    e.1 ≠ 0 ∧ e.2 ≠ 0 := by
  induction l with
  | nil => cases h
  | cons s l ih =>
    rw [located] at h
    split at h
    · exact ih h
    · rcases List.mem_cons.mp h with rfl | h
      · exact ⟨fun hs => ‹¬s = 0#4› (congrArg nibble hs), pow_ne_zero _ (by decide)⟩
      · exact ih h

theorem length_located_zipWith (s t : List Nibble) :
    (located (List.zipWith (· ^^^ ·) s t)).length = (differences s t).count true := by
  induction s generalizing t with
  | nil => rfl
  | cons a s ih =>
    cases t with
    | nil => rfl
    | cons b t =>
      rw [List.zipWith_cons_cons, located, differences_cons, List.count_cons, ← ih]
      by_cases h : a = b
      · rw [if_pos (BitVec.xor_eq_zero_iff.mpr h)]
        simp [h]
      · rw [if_neg (mt BitVec.xor_eq_zero_iff.mp h)]
        simp [h]

end Symbol

/-! ## Codewords -/

/-- The generator divides the word. -/
def IsCodeword (word : List Nibble) : Prop := ∀ k < 4, (Symbol.root k).value word = 0

/-- The minimum distance of the code. -/
theorem IsCodeword.five_le_distance {s t : List Nibble} (hs : IsCodeword s) (ht : IsCodeword t)
    (hlen : s.length = t.length) (hmax : s.length ≤ 15) (hne : distance s t ≠ 0) :
    5 ≤ distance s t := by
  by_contra! hlt
  let errors := Symbol.located (List.zipWith (· ^^^ ·) s t)
  have hlength : errors.length = distance s t := Symbol.length_located_zipWith s t
  have hnodup : (errors.map Prod.snd).Nodup := by
    refine (Symbol.nodup_places _ ?_).sublist (Symbol.located_sublist _)
    rw [List.length_zipWith, ← hlen, Nat.min_self]
    exact hmax
  -- the sums over the errors are the values of the words at the roots, and there are enough of them
  have hnil : errors = [] := by
    refine eq_nil_of_sums 6 4 (by omega) hnodup (fun _ => Symbol.ne_zero_of_mem_located)
      fun k hk => ?_
    rw [← Symbol.value_located, ← Symbol.root, Symbol.value_zipWith_xor hlen, hs k hk, ht k hk,
      add_zero]
  rw [← hlength, hnil] at hne
  exact hne rfl

/-! ## The division -/

namespace Remainder

open SpaceLink.Symbol

/-- The coefficients, from the highest down. -/
def symbols (r : Remainder) : List Nibble := [r.c3, r.c2, r.c1, r.c0]

variable {k : Nat} (hk : k < 4)
include hk

/-- At a root of the generator, the division takes nothing away. -/
theorem value_step (r : Remainder) (s : Nibble) :
    (root k).value (r.step s).symbols =
      (root k).value r.symbols * root k + Symbol.mk s * root k ^ 4 := by
  have hroot := generator_root k hk
  have htwo : (2 : Symbol) = 0 := by rw [← one_add_one_eq_two, add_self]
  simp only [symbols, step, value, List.length, mk_xor, mk_mul, mk_one]
  linear_combination (Symbol.mk s + Symbol.mk r.c3) * (hroot - root k ^ 4 * htwo)

theorem value_foldl_step (r : Remainder) (l : List Nibble) :
    (root k).value (l.foldl step r).symbols =
      (root k).value r.symbols * root k ^ l.length + (root k).value l * root k ^ 4 := by
  induction l generalizing r with
  | nil =>
    simp only [List.foldl, List.length, value]
    ring
  | cons s l ih =>
    rw [List.foldl_cons, ih, value_step hk, value, List.length_cons]
    ring

end Remainder

/-- A word followed by its remainder. -/
theorem isCodeword_append (l : List Nibble) :
    IsCodeword (l ++ (l.foldl Remainder.step .zero).symbols) := by
  intro k hk
  have hzero : (Symbol.root k).value Remainder.zero.symbols = 0 := by
    simp only [Symbol.value, Remainder.symbols, Remainder.zero, Symbol.mk_zero, zero_mul, add_zero]
  rw [Symbol.value_append, Remainder.value_foldl_step hk, hzero, zero_mul, zero_add]
  exact Symbol.add_self _

/-! ## Headers -/

theorem Nibble.ofByte_toByte : ∀ a b : Nibble, ofByte (toByte a b) = [a, b] := by
  decide

/-- The symbols of a header that its check protects. -/
def protectedSymbols (header : Bytes) : List Nibble :=
  [header.getD 0 0, header.getD 1 0, header.getD 5 0].flatMap Nibble.ofByte

/-- The ten symbols of a header with its check. -/
def headerSymbols (header check : Bytes) : List Nibble :=
  protectedSymbols header ++ check.flatMap Nibble.ofByte

theorem length_headerSymbols (header : Bytes) {check : Bytes} (h : check.length = fhecLength) :
    (headerSymbols header check).length = 10 := by
  obtain ⟨x, y, rfl⟩ := List.length_eq_two.mp h
  rfl

theorem fhec?_eq {header : Bytes} (h : 6 ≤ header.length) :
    fhec? header = some ((protectedSymbols header).foldl Remainder.step .zero).toBytes := by
  match header, h with
  | b0 :: b1 :: _ :: _ :: _ :: b5 :: _, _ => rfl

variable {header header' check check' : Bytes}

theorem isCodeword_of_fhec? (h : 6 ≤ header.length) (hcheck : fhec? header = some check) :
    IsCodeword (headerSymbols header check) := by
  rw [fhec?_eq h] at hcheck
  cases hcheck
  have hsymbols (r : Remainder) : r.toBytes.flatMap Nibble.ofByte = r.symbols := by
    rw [Remainder.toBytes, List.flatMap_cons, List.flatMap_singleton, Nibble.ofByte_toByte,
      Nibble.ofByte_toByte]
    rfl
  rw [headerSymbols, hsymbols]
  exact isCodeword_append _

example : fhec? [0x55, 0x61, 0x01, 0xe2, 0x40, 0x05] = some [0xac, 0xce] := by
  decide

theorem length_of_fhec? (h : 6 ≤ header.length) (hcheck : fhec? header = some check) :
    check.length = fhecLength := by
  rw [fhec?_eq h] at hcheck
  cases hcheck
  rfl

theorem five_le_distance_headerSymbols (h : 6 ≤ header.length) (h' : 6 ≤ header'.length)
    (hcheck : fhec? header = some check) (hcheck' : fhec? header' = some check')
    (hne : distance (headerSymbols header check) (headerSymbols header' check') ≠ 0) :
    5 ≤ distance (headerSymbols header check) (headerSymbols header' check') := by
  have hlen := length_headerSymbols header (length_of_fhec? h hcheck)
  have hlen' := length_headerSymbols header' (length_of_fhec? h' hcheck')
  exact (isCodeword_of_fhec? h hcheck).five_le_distance (isCodeword_of_fhec? h' hcheck')
    (hlen.trans hlen'.symm) (by omega) hne

/-- A header and a check that are too close to a header with its own check do not fit. -/
theorem fhecValid?_of_distance (h : 6 ≤ header.length) (h' : 6 ≤ header'.length)
    (hcheck : fhec? header = some check) (hlen : check'.length = fhecLength)
    (herrors : distance (headerSymbols header check) (headerSymbols header' check') ∈
      Set.Icc 1 4) : fhecValid? header' check' = some false := by
  obtain ⟨own, hown⟩ : ∃ own, fhec? header' = some own := ⟨_, fhec?_eq h'⟩
  rw [fhecValid?, if_pos hlen, hown, Option.map_some, Option.some.injEq]
  refine beq_eq_false_iff_ne.mpr ?_
  rintro rfl
  obtain ⟨hone, hfour⟩ := herrors
  have hfive := five_le_distance_headerSymbols h h' hcheck hown (Nat.ne_of_gt hone)
  omega

end SpaceLink
