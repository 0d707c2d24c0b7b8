import Mathlib.Data.Nat.ModEq
import SpaceLink.FrameCount

/-!
# Counts on a circle

`forwardDistance` is the one step, shorter than the circle, that leads from the expected count to
the received one (`forwardDistance_eq_iff`), so a gap is determined by the two counts on its sides
(`Gap.between?_eq_some_iff`).
-/

namespace SpaceLink

variable {expected received modulus : Nat}

theorem forwardDistance_self (n : Nat) : forwardDistance n n modulus = 0 := by
  rw [forwardDistance, if_pos (Nat.le_refl _), Nat.sub_self]

theorem forwardDistance_lt (h : 0 < modulus) :
    forwardDistance expected received modulus < modulus := by
  have he := Nat.mod_lt expected h
  have hr := Nat.mod_lt received h
  rw [forwardDistance]
  split <;> omega

theorem add_forwardDistance (h : 0 < modulus) :
    (expected + forwardDistance expected received modulus) % modulus = received % modulus := by
  have he := Nat.mod_lt expected h
  rw [← Nat.mod_add_mod, forwardDistance]
  split
  · rw [Nat.add_sub_cancel' ‹_›, Nat.mod_mod]
  · rw [← Nat.add_assoc, Nat.add_sub_cancel' (Nat.le_of_lt he), Nat.add_mod_left, Nat.mod_mod]

/-- The distance is the only number below the modulus that leads from one count to the other. -/
theorem forwardDistance_eq_iff {distance : Nat} (h : distance < modulus) :
    forwardDistance expected received modulus = distance ↔
      (expected + distance) % modulus = received % modulus := by
  have hpos := Nat.zero_lt_of_lt h
  constructor
  · rintro rfl
    exact add_forwardDistance hpos
  · intro hd
    have heq : (forwardDistance expected received modulus + expected) % modulus =
        (distance + expected) % modulus := by
      rw [Nat.add_comm, add_forwardDistance hpos, Nat.add_comm, hd]
    have hmod := Nat.ModEq.add_right_cancel' expected heq
    exact Nat.ModEq.eq_of_lt_of_lt hmod (forwardDistance_lt hpos) h

/-- The gap is what is missing between the count `previous` and the next one received, on the circle
of `modulus` counts. -/
structure Gap.Spans (g : Gap) (previous received modulus : Nat) : Prop where
  expected_eq : g.expected = (previous + 1) % modulus
  received_eq : g.received = received
  missing_pos : 0 < g.missing
  missing_lt : g.missing < modulus
  expected_add_missing : (g.expected + g.missing) % modulus = received

namespace Gap

variable {previous : Nat} {g : Gap}

/-- There is a gap if the received count is not the one after the previous, and just one. -/
theorem between?_eq_some_iff (h : received < modulus) :
    between? (some previous) received modulus = some g ↔
      received ≠ (previous + 1) % modulus ∧ g.Spans previous received modulus := by
  have hpos := Nat.zero_lt_of_lt h
  have hr := Nat.mod_eq_of_lt h
  rw [between?]
  split
  · simp [‹received = _›]
  rename_i hne
  rw [Option.some.injEq]
  constructor
  · rintro rfl
    have hreach : ((previous + 1) % modulus + forwardDistance ((previous + 1) % modulus) received
        modulus) % modulus = received := by
      rw [add_forwardDistance hpos, hr]
    refine ⟨hne, rfl, rfl, Nat.pos_of_ne_zero fun hzero => hne ?_, forwardDistance_lt hpos, hreach⟩
    -- no distance at all would be no gap
    have hself := (forwardDistance_eq_iff hpos).mp hzero
    rw [Nat.add_zero, Nat.mod_mod, hr] at hself
    exact hself.symm
  · rintro ⟨-, hspans⟩
    obtain ⟨expected, received', missing⟩ := g
    obtain ⟨rfl, rfl, -, hlt, hreach⟩ := hspans
    have := (forwardDistance_eq_iff hlt).mpr (hreach.trans hr.symm)
    dsimp only at this ⊢
    rw [this]

theorem between?_ne_none_iff {last? : Option Nat} :
    between? last? received modulus ≠ none ↔
      ∃ last ∈ last?, received ≠ (last + 1) % modulus := by
  cases last? with
  | none => simp [between?]
  | some last =>
    rw [between?]
    split
    · simp [‹received = _›]
    · simp [‹¬received = _›]

end Gap

end SpaceLink
