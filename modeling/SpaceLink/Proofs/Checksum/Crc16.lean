import Mathlib.Data.List.GetD
import Mathlib.Tactic.IntervalCases
import SpaceLink.Checksum.Crc16
import SpaceLink.Proofs.BitField
import SpaceLink.Proofs.Checksum.Differences

/-!
# What the cyclic redundancy code detects

The register is linear (`Crc16.run_differences`), so after two frames that are both valid it is as
if it had been run over their differences and come out as zero. It does not come out as zero over a
burst of differences that is no longer than itself (`Crc16.run_burst_ne_zero`), nor over an odd
number of them (`Crc16.run_odd_ne_zero`).
-/

namespace SpaceLink

namespace Crc16

variable {s t errors : List Bool} {r q : BitVec 16}

/-! ## The register is linear -/

/-- What is subtracted when the register is divided. -/
def divisor (divides : Bool) : BitVec 16 := if divides then generator else 0#16

theorem divisor_xor (a b : Bool) : divisor (a ^^ b) = divisor a ^^^ divisor b := by
  cases a <;> cases b <;> rfl

theorem step_eq (r : BitVec 16) (b : Bool) : step r b = r <<< 1 ^^^ divisor (r.msb ^^ b) := by
  rw [step, divisor]
  split
  · rfl
  · exact (BitVec.xor_zero).symm

theorem step_xor (r q : BitVec 16) (a b : Bool) :
    step (r ^^^ q) (a ^^ b) = step r a ^^^ step q b := by
  have hdivides : ((r ^^^ q).msb ^^ (a ^^ b)) = ((r.msb ^^ a) ^^ (q.msb ^^ b)) := by
    rw [BitVec.msb_xor, Bool.xor_assoc, Bool.xor_assoc, Bool.xor_left_comm q.msb]
  rw [step_eq, step_eq, step_eq, hdivides, divisor_xor, BitVec.shiftLeft_xor_distrib]
  ac_rfl

theorem run_differences (h : s.length = t.length) :
    run (r ^^^ q) (differences s t) = run r s ^^^ run q t := by
  induction s generalizing r q t with
  | nil =>
    rw [List.eq_nil_of_length_eq_zero h.symm]
    rfl
  | cons a s ih =>
    obtain ⟨b, t, rfl⟩ := List.exists_of_length_succ t h.symm
    have hab : decide (a ≠ b) = (a ^^ b) := by cases a <;> cases b <;> rfl
    rw [differences_cons, hab]
    show run (step (r ^^^ q) (a ^^ b)) (differences s t) = run (step r a) s ^^^ run (step q b) t
    rw [step_xor, ih (Nat.succ.inj h)]

/-! ## Bursts -/

/-- The lowest bit of the register shows whether it was divided. -/
theorem getMsbD_step_last (r : BitVec 16) (b : Bool) : (step r b).getMsbD 15 = (r.msb ^^ b) := by
  have hshift : (r <<< 1).getMsbD 15 = false := by
    rw [BitVec.getMsbD_shiftLeft]
    exact BitVec.getMsbD_of_ge r 16 (Nat.le_refl _)
  rw [step_eq, BitVec.getMsbD_xor, hshift, Bool.false_xor]
  cases r.msb ^^ b <;> rfl

theorem step_of_msb {b : Bool} (h : r.msb = b) : step r b = r <<< 1 := by
  rw [step_eq, h, Bool.xor_self]
  exact BitVec.xor_zero

/-- A register comes out as zero over no more bits than it has exactly if they are its own first
bits and its others are zero. -/
theorem run_eq_zero_iff (hs : s.length ≤ 16) :
    run r s = 0#16 ↔ ∀ i < 16, r.getMsbD i = s.getD i false := by
  induction s generalizing r with
  | nil =>
    constructor
    · rintro h i -
      rw [show r = 0#16 from h, BitVec.getMsbD_zero, List.getD_nil]
    · intro h
      exact BitVec.eq_of_getMsbD_eq fun i hi => (h i hi).trans BitVec.getMsbD_zero.symm
  | cons b s ih =>
    have hs : s.length ≤ 15 := Nat.le_of_succ_le_succ hs
    have hend : s.getD 15 false = false := List.getD_eq_default s false hs
    show run (step r b) s = 0#16 ↔ _
    rw [ih (Nat.le_succ_of_le hs)]
    constructor
    · intro h
      have hmsb : r.msb = b := by
        have hlast := h 15 (by decide)
        rw [getMsbD_step_last, hend] at hlast
        exact bne_eq_false_iff_eq.mp hlast
      rw [step_of_msb hmsb] at h
      intro i hi
      cases i with
      | zero => exact hmsb
      | succ i =>
        rw [List.getD_cons_succ, ← h i (Nat.lt_of_succ_lt hi), BitVec.getMsbD_shiftLeft]
    · intro h i hi
      have hmsb : r.msb = b := h 0 (by decide)
      rw [step_of_msb hmsb, BitVec.getMsbD_shiftLeft]
      rcases Nat.lt_or_ge (i + 1) 16 with hlt | hge
      · exact h (i + 1) hlt
      · rw [BitVec.getMsbD_of_ge r _ hge, List.getD_eq_default s false (by omega)]

theorem run_eq_zero_of_replicate {n : Nat} (h : run r (List.replicate n false) = 0#16) :
    r = 0#16 := by
  induction n generalizing r with
  | zero => exact h
  | succ n ih =>
    have hstep : run r [false] = 0#16 := ih h
    have hbits := (run_eq_zero_iff (by decide)).mp hstep
    refine BitVec.eq_of_getMsbD_eq fun i hi => ?_
    rw [hbits i hi, BitVec.getMsbD_zero]
    cases i <;> rfl

theorem run_zero_replicate (n : Nat) : run 0#16 (List.replicate n false) = 0#16 := by
  induction n with
  | zero => rfl
  | succ n ih => exact ih

private theorem eq_replicate_false (h : ∀ i : Nat, s[i]? ≠ some true) :
    s = List.replicate s.length false := by
  refine List.eq_replicate_of_mem fun b hb => ?_
  obtain ⟨i, hi⟩ := List.mem_iff_getElem?.mp hb
  cases b with
  | false => rfl
  | true => exact absurd hi (h i)

/-- A register that holds nothing does not come out empty over a burst. -/
theorem run_burst_ne_zero (h : true ∈ errors) (hburst : Burst 16 errors) :
    run 0#16 errors ≠ 0#16 := by
  obtain ⟨start, hwithin⟩ := hburst
  have hsplit : errors.take start ++ ((errors.drop start).take 16 ++ errors.drop (start + 16)) =
      errors := by
    rw [← List.drop_drop, List.take_append_drop, List.take_append_drop]
  -- there are no errors before the burst and behind it
  have hbefore : errors.take start = List.replicate (errors.take start).length false := by
    refine eq_replicate_false fun i hi => ?_
    rw [List.getElem?_take] at hi
    split at hi
    · exact Nat.not_le.mpr ‹_› (hwithin i hi).1
    · cases hi
  have hafter : errors.drop (start + 16) =
      List.replicate (errors.drop (start + 16)).length false := by
    refine eq_replicate_false fun i hi => ?_
    rw [List.getElem?_drop] at hi
    exact Nat.not_lt.mpr (Nat.le_add_right _ _) (hwithin _ hi).2
  intro hzero
  rw [← hsplit, run_append, run_append, hbefore, run_zero_replicate, hafter] at hzero
  have hmiddle := (run_eq_zero_iff (List.length_take_le 16 _)).mp (run_eq_zero_of_replicate hzero)
  -- so the burst has none either
  rw [← hsplit, List.mem_append, List.mem_append, hbefore, hafter] at h
  rcases h with h | h | h
  · cases List.eq_of_mem_replicate h
  · obtain ⟨i, hi⟩ := List.mem_iff_getElem?.mp h
    have hlt : i < 16 := Nat.lt_of_lt_of_le (List.getElem?_eq_some_iff.mp hi).1
      (List.length_take_le 16 _)
    have hbit := hmiddle i hlt
    rw [BitVec.getMsbD_zero, List.getD_eq_getElem?_getD, hi] at hbit
    cases hbit
  · cases List.eq_of_mem_replicate h

/-! ## Odd numbers of errors -/

/-- The number of bits set is odd. -/
def odd (s : List Bool) : Bool := s.foldr (· ^^ ·) false

theorem odd_append (s t : List Bool) : odd (s ++ t) = (odd s ^^ odd t) := by
  induction s with
  | nil => exact (Bool.false_xor _).symm
  | cons b s ih => exact (congrArg (b ^^ ·) ih).trans (Bool.xor_assoc ..).symm

theorem odd_map_xor {α : Type} (f g : α → Bool) (l : List α) :
    odd (l.map fun a => f a ^^ g a) = (odd (l.map f) ^^ odd (l.map g)) := by
  induction l with
  | nil => rfl
  | cons a l ih =>
    show (f a ^^ g a ^^ odd _) = (f a ^^ odd _ ^^ (g a ^^ odd _))
    rw [ih, Bool.xor_assoc, Bool.xor_assoc, Bool.xor_left_comm (g a)]

theorem odd_eq_decide (s : List Bool) : odd s = decide (s.count true % 2 = 1) := by
  induction s with
  | nil => rfl
  | cons b s ih =>
    show (b ^^ odd s) = _
    rw [ih, List.count_cons]
    cases b with
    | false => simp
    | true =>
      rw [Bool.true_xor, ← decide_not, decide_eq_decide]
      simp only [beq_self_eq_true, if_true]
      omega

/-- The parity of the register, that is, its remainder on division by x + 1. -/
def parity (r : BitVec 16) : Bool := odd ((List.range 16).map r.getMsbD)

theorem parity_xor (r q : BitVec 16) : parity (r ^^^ q) = (parity r ^^ parity q) := by
  rw [parity, parity, parity, ← odd_map_xor]
  exact congrArg odd (List.map_congr_left fun _ _ => BitVec.getMsbD_xor)

theorem parity_shiftLeft_one (r : BitVec 16) : parity r = (r.msb ^^ parity (r <<< 1)) := by
  have hend : r.getMsbD 16 = false := BitVec.getMsbD_of_ge r 16 (Nat.le_refl _)
  have hrange : odd ((List.range 17).map r.getMsbD) = parity r := by
    rw [List.range_succ, List.map_append, List.map_singleton, hend, odd_append]
    exact Bool.xor_false _
  have hshift : (List.range 16).map (r <<< 1).getMsbD =
      (List.range 16).map (r.getMsbD ∘ Nat.succ) :=
    List.map_congr_left fun i _ => BitVec.getMsbD_shiftLeft r 1
  rw [← hrange, List.range_succ_eq_map, List.map_cons, List.map_map, parity, hshift]
  rfl

/-- The generator is divided by x + 1. -/
theorem parity_divisor (divides : Bool) : parity (divisor divides) = divides := by
  cases divides <;> decide

theorem parity_step (r : BitVec 16) (b : Bool) : parity (step r b) = (parity r ^^ b) := by
  rw [step_eq, parity_xor, parity_divisor, parity_shiftLeft_one r, Bool.xor_left_comm,
    Bool.xor_assoc]

theorem parity_run (r : BitVec 16) (s : List Bool) : parity (run r s) = (parity r ^^ odd s) := by
  induction s generalizing r with
  | nil => exact (Bool.xor_false _).symm
  | cons b s ih =>
    show parity (run (step r b) s) = (parity r ^^ (b ^^ odd s))
    rw [ih, parity_step, Bool.xor_assoc]

theorem run_odd_ne_zero (h : errors.count true % 2 = 1) : run 0#16 errors ≠ 0#16 := by
  intro hzero
  have hparity := parity_run 0#16 errors
  rw [hzero, odd_eq_decide, decide_eq_true h] at hparity
  exact absurd hparity (by decide)

end Crc16

/-! ## Frames -/

theorem Bytes.length_toBits (d : Bytes) : (toBits d).length = 8 * d.length := by
  induction d with
  | nil => rfl
  | cons b d ih =>
    rw [toBits_cons, List.length_append, ih, length_byteBits, List.length_cons]
    omega

/-- The first bit on the link is the highest of the number. -/
theorem Bytes.getD_toBits_two (x y : UInt8) {i : Nat} (h : i < 16) :
    (toBits [x, y]).getD i false = (toNatBE [x, y]).testBit (15 - i) := by
  have htest (k : Nat) : (toNatBE [x, y]).testBit k =
      if k < 8 then y.toNat.testBit k else x.toNat.testBit (k - 8) := by
    have hnumber : toNatBE [x, y] = 2 ^ 8 * x.toNat + y.toNat := by
      simp only [toNatBE, List.foldl]
      omega
    rw [hnumber, Nat.testBit_two_pow_mul_add _ y.toNat_lt]
  rw [htest]
  interval_cases i <;> rfl

theorem Crc16.toNat_eq_iff {r : BitVec 16} {n : Nat} (h : n < 2 ^ 16) :
    r.toNat = n ↔ ∀ i < 16, r.getMsbD i = n.testBit (15 - i) := by
  constructor
  · rintro rfl i hi
    rw [BitVec.getMsbD_eq_getLsbD, decide_eq_true hi, Bool.true_and, BitVec.testBit_toNat]
  · intro hbits
    have hr : r = BitVec.ofNat 16 n := BitVec.eq_of_getMsbD_eq fun i hi => by
      rw [hbits i hi, BitVec.getMsbD_eq_getLsbD, decide_eq_true hi, Bool.true_and,
        BitVec.getLsbD_ofNat, decide_eq_true (by omega), Bool.true_and]
    rw [hr, BitVec.toNat_ofNat, Nat.mod_eq_of_lt h]

theorem fecfValid_iff {d : Bytes} :
    fecfValid d = true ↔
      fecfLength ≤ d.length ∧ Crc16.run 0xffff#16 (Bytes.toBits d) = 0#16 := by
  rw [fecfValid, Bool.and_eq_true, decide_eq_true_eq]
  refine and_congr_right fun hlen => ?_
  obtain ⟨x, y, hxy⟩ : ∃ x y, d.drop (d.length - fecfLength) = [x, y] := by
    refine List.length_eq_two.mp ?_
    rw [List.length_drop, Nat.sub_sub_self hlen]
    rfl
  have hbits : Bytes.toBits d =
      Bytes.toBits (d.take (d.length - fecfLength)) ++ Bytes.toBits [x, y] := by
    rw [← Bytes.toBits_append, ← hxy, List.take_append_drop]
  have hnumber : Bytes.toNatBE [x, y] < 2 ^ 16 := Bytes.toNatBE_lt (show [x, y].length = 2 from rfl)
  rw [beq_iff_eq, hxy, crc16, Crc16.toNat_eq_iff hnumber, hbits,
    Crc16.run_append, Crc16.run_eq_zero_iff (Nat.le_of_eq (Bytes.length_toBits [x, y]))]
  exact forall₂_congr fun i hi => by rw [Bytes.getD_toBits_two x y hi]

/-- The digits 1 to 9, whose check tells this code from others of 16 bits. -/
example : fecfValid [0x31, 0x32, 0x33, 0x34, 0x35, 0x36, 0x37, 0x38, 0x39, 0x29, 0xb1] = true := by
  decide +kernel

/-- An error that the check detects for sure. -/
def Detectable (errors : List Bool) : Prop :=
  true ∈ errors ∧ (Burst 16 errors ∨ errors.count true % 2 = 1)

instance (errors : List Bool) : Decidable (Detectable errors) :=
  inferInstanceAs (Decidable (_ ∧ (_ ∨ _)))

theorem fecfValid_of_detectable {d d' : Bytes} (hlen : d'.length = d.length)
    (herrors : Detectable (differences d.toBits d'.toBits)) (hd : fecfValid d = true) :
    fecfValid d' = false := by
  refine Bool.eq_false_iff.mpr fun hd' => ?_
  have hlen' : (Bytes.toBits d).length = (Bytes.toBits d').length := by
    rw [Bytes.length_toBits, Bytes.length_toBits, hlen]
  have hrun := Crc16.run_differences (r := 0xffff#16) (q := 0xffff#16) hlen'
  rw [(fecfValid_iff.mp hd).2, (fecfValid_iff.mp hd').2, BitVec.xor_self, BitVec.xor_self] at hrun
  obtain ⟨hsome, hburst | hodd⟩ := herrors
  · exact Crc16.run_burst_ne_zero hsome hburst hrun
  · exact Crc16.run_odd_ne_zero hodd hrun

end SpaceLink
