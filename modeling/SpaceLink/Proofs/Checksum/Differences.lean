import Mathlib.Data.List.Basic

/-!
# Differences

What happened to a sequence of symbols on its way is told by the places at which it differs from
what was sent.
-/

namespace SpaceLink

variable {α : Type} [DecidableEq α]

/-- The places at which two sequences of the same length differ. -/
def differences (s t : List α) : List Bool := List.zipWith (fun a b => decide (a ≠ b)) s t

@[simp] theorem differences_cons (a b : α) (s t : List α) :
    differences (a :: s) (b :: t) = decide (a ≠ b) :: differences s t := rfl

/-- The number of places at which two sequences of the same length differ. -/
def distance (s t : List α) : Nat := (differences s t).count true

theorem distance_append {s t : List α} (h : s.length = t.length) (s' t' : List α) :
    distance (s ++ s') (t ++ t') = distance s t + distance s' t' := by
  rw [distance, differences, List.zipWith_append h, List.count_append]
  rfl

/-- All differences lie within `width` consecutive places. -/
def Burst (width : Nat) (errors : List Bool) : Prop :=
  ∃ start, ∀ i : Nat, errors[i]? = some true → start ≤ i ∧ i < start + width

/-- A burst is looked for among the places that there are. -/
theorem burst_iff {width : Nat} {errors : List Bool} :
    Burst width errors ↔ ∃ start ≤ errors.length, ∀ i < errors.length,
      errors[i]? = some true → start ≤ i ∧ i < start + width := by
  constructor
  · rintro ⟨start, h⟩
    rcases Nat.le_total start errors.length with hle | hle
    · exact ⟨start, hle, fun i _ => h i⟩
    · refine ⟨errors.length, Nat.le_refl _, fun i hi herror => ?_⟩
      exact absurd (Nat.le_trans hle (h i herror).1) (Nat.not_le.mpr hi)
  · rintro ⟨start, -, h⟩
    exact ⟨start, fun i herror => h i (List.getElem?_eq_some_iff.mp herror).1 herror⟩

instance (width : Nat) (errors : List Bool) : Decidable (Burst width errors) :=
  decidable_of_iff _ burst_iff.symm

end SpaceLink
