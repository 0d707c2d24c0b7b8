import SpaceLink.Steps

/-!
# Steps that are accepted

`accepted` are the steps that had an effect, and `last?` is the last value that they set. What holds
of the state in terms of the steps so far is proved by `attemptAll_accepted`: by what one accepted
step adds. For steps that are known up to order and repetition, `accepted_eq_self`,
`last?_of_setters` and `take_flatMap_of_mem` say what they come to.
-/

namespace SpaceLink

theorem bind_eq_ok_iff {ε α β : Type} {x : Except ε α} {f : α → Except ε β} {b : β} :
    x >>= f = .ok b ↔ ∃ a, x = .ok a ∧ f a = .ok b := by
  cases x with
  | error e => exact ⟨nofun, fun ⟨_, h, _⟩ => nomatch h⟩
  | ok a => exact ⟨fun h => ⟨a, rfl, h⟩, fun ⟨_, h, hf⟩ => by cases h; exact hf⟩

theorem bind_eq_error_iff {ε α β : Type} {x : Except ε α} {f : α → Except ε β} {e : ε} :
    x >>= f = .error e ↔ x = .error e ∨ ∃ a, x = .ok a ∧ f a = .error e := by
  cases x with
  | error e' => exact ⟨fun h => .inl (by cases h; rfl), fun h => by
      rcases h with h | ⟨_, h, _⟩
      · cases h
        rfl
      · cases h⟩
  | ok a => exact ⟨fun h => .inr ⟨a, rfl, h⟩, fun h => by
      rcases h with h | ⟨_, h, hf⟩
      · cases h
      · cases h
        exact hf⟩

theorem ok_bind {ε α β : Type} (a : α) (f : α → Except ε β) : (.ok a : Except ε α) >>= f = f a :=
  rfl

theorem exists_eq_ok_of_isOk {ε α : Type} {x : Except ε α} (h : x.isOk = true) :
    ∃ a, x = .ok a := by
  cases x with
  | ok a => exact ⟨a, rfl⟩
  | error e => cases h

/-- What is computed and passes a test is there. -/
theorem exists_of_any {ε α : Type} {x : Except ε α} {p : α → Bool}
    (h : x.toOption.any p = true) : ∃ a, x = .ok a ∧ p a = true := by
  cases x with
  | error e => cases h
  | ok a => exact ⟨a, rfl, h⟩

section

variable {β σ ε α : Type} (apply : β → σ → Except ε β)

/-- The steps that are not refused, in order. -/
def accepted (b : β) : List σ → List σ
  | [] => []
  | s :: steps =>
    match apply b s with
    | .ok b' => s :: accepted b' steps
    | .error _ => accepted b steps

/-- Induction over the accepted steps: what holds of no step and the state before, and is kept by
an accepted step, holds of all accepted steps and the state after them. -/
theorem attemptAll_accepted {p : List σ → β → Prop} {b : β} (start : p [] b)
    (step : ∀ taken b s b', p taken b → apply b s = .ok b' → p (taken ++ [s]) b')
    (steps : List σ) : p (accepted apply b steps) (attemptAll apply b steps) := by
  have run : ∀ taken b, p taken b →
      p (taken ++ accepted apply b steps) (attemptAll apply b steps) := by
    induction steps with
    | nil =>
      intro taken b h
      rw [accepted, List.append_nil]
      exact h
    | cons s steps ih =>
      intro taken b h
      show p _ (attemptAll apply (attempt apply b s) steps)
      rw [accepted, attempt]
      cases hs : apply b s with
      | error e => exact ih taken b h
      | ok b' =>
        have := ih _ b' (step taken b s b' h hs)
        rw [List.append_assoc] at this
        exact this
  exact run [] b start

/-- Steps none of which is refused, whatever of the others came before, are all accepted. -/
theorem accepted_eq_self {p : β → Prop} {b : β} (hb : p b) {steps : List σ}
    (h : ∀ b, p b → ∀ s ∈ steps, ∃ b', apply b s = .ok b' ∧ p b') :
    accepted apply b steps = steps := by
  induction steps generalizing b with
  | nil => rfl
  | cons s steps ih =>
    obtain ⟨b', hs, hb'⟩ := h b hb s List.mem_cons_self
    rw [accepted, hs]
    exact congrArg (s :: ·) (ih hb' fun b hb s hs => h b hb s (List.mem_cons_of_mem _ hs))

/-- The last of the values that some of the steps set. -/
def last? (value? : σ → Option α) (steps : List σ) : Option α := (steps.filterMap value?).getLast?

theorem last?_concat (value? : σ → Option α) (steps : List σ) (s : σ) :
    last? value? (steps ++ [s]) = (value? s).or (last? value? steps) := by
  rw [last?, last?, List.filterMap_append]
  cases hs : value? s with
  | none => rw [List.filterMap_cons_none hs, List.filterMap_nil, List.append_nil, Option.none_or]
  | some a =>
    rw [List.filterMap_cons_some hs, List.filterMap_nil, List.getLast?_concat, Option.some_or]

/-- Where the setters among the steps set at most one value, and the other steps none, that value is
the last, whatever the order and number of the steps. -/
theorem last?_of_setters {value? : σ → Option α} {steps setters : List σ} {a? : Option α}
    (hall : ∀ s ∈ setters, s ∈ steps) (honly : ∀ s ∈ steps, s ∈ setters ∨ value? s = none)
    (ha : setters.filterMap value? = a?.toList) : last? value? steps = a? := by
  have hmem (a : α) : a ∈ steps.filterMap value? ↔ a ∈ a?.toList := by
    rw [← ha, List.mem_filterMap, List.mem_filterMap]
    constructor
    · rintro ⟨s, hs, hv⟩
      refine ⟨s, (honly s hs).resolve_right fun hn => ?_, hv⟩
      rw [hn] at hv
      cases hv
    · rintro ⟨s, hs, hv⟩
      exact ⟨s, hall s hs, hv⟩
  rw [last?]
  cases a? with
  | none =>
    have hnil : steps.filterMap value? = [] :=
      List.eq_nil_iff_forall_not_mem.mpr fun a ha => List.not_mem_nil ((hmem a).mp ha)
    rw [hnil, List.getLast?_nil]
  | some a =>
    have hne : steps.filterMap value? ≠ [] :=
      List.ne_nil_of_mem ((hmem a).mpr (List.mem_singleton_self a))
    rw [List.getLast?_eq_some_getLast hne]
    exact congrArg some (List.mem_singleton.mp ((hmem _).mp (List.getLast_mem hne)))

/-- Steps that all add the same bytes, or none, add these bytes first. -/
theorem take_flatMap_of_mem {value : σ → List α} {steps : List σ} {d : List α}
    (h : ∀ s ∈ steps, value s = d ∨ value s = []) (hd : ∃ s ∈ steps, value s = d) :
    (steps.flatMap value).take d.length = d := by
  induction steps with
  | nil =>
    obtain ⟨s, hs, -⟩ := hd
    cases hs
  | cons s steps ih =>
    rw [List.flatMap_cons]
    rcases h s List.mem_cons_self with hs | hs
    · rw [hs, List.take_left]
    · rw [hs, List.nil_append]
      obtain ⟨s', hs', hd⟩ := hd
      rcases List.mem_cons.mp hs' with rfl | hs'
      · rw [← hd, hs, List.length_nil, List.take_zero]
      · exact ih (fun s hs => h s (List.mem_cons_of_mem _ hs)) ⟨s', hs', hd⟩

end

end SpaceLink
