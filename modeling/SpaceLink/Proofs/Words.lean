import SpaceLink.Words
import SpaceLink.Proofs.Steps

/-!
# Programs that do what functions do

A program `Agrees` with a function when it ends in the same way: with the same error, or with results
that stand for each other. It may also stop, if that is allowed for. Programs put together in
sequence agree with the functions put together (`Program.Agrees.bind`), and a sum or difference in
words is one of numbers in any program that is allowed to stop where it is not (`bind_add`,
`bind_sub`). For changes in place, an error has to leave everything as it was (`Change.Agrees`).
-/

namespace SpaceLink

namespace Arithmetic

variable (a : Arithmetic) {m n : Nat}

theorem reduce_of_lt (h : n < wordSize) : a.reduce n = some n := if_pos h

theorem add_of_lt (h : m + n < wordSize) : a.add m n = some (m + n) := a.reduce_of_lt h

theorem sub_of_le (h : n ≤ m) : a.sub m n = some (m - n) := if_pos h

end Arithmetic

theorem some_bind {α β : Type} (x : α) (f : α → Program β) :
    (liftM (some x : Option α) >>= f : Program β) = f x := rfl

namespace Program

variable {α β γ δ : Type}

/-- The program gives the error of the function, or a result that stands for the one of the
function, or it stops where it may. -/
inductive Agrees (stops : Prop) (R : α → β → Prop) : Program α → Except Error β → Prop
  | ok {x : α} {y : β} : R x y → Agrees stops R (pure x) (.ok y)
  | error (e : Error) : Agrees stops R (throw e) (.error e)
  | stop {r : Except Error β} : stops → Agrees stops R (liftM (none : Option α)) r

/-- What a program gives when it is run, if it passes a test, is its result. -/
theorem exists_of_any {p : Program α} {test : α → Bool}
    (h : p.run.any (·.toOption.any test) = true) : ∃ x, p.run = some (.ok x) ∧ test x = true := by
  generalize p.run = outcome at h
  obtain _ | outcome := outcome
  · cases h
  · obtain ⟨x, rfl, hx⟩ := SpaceLink.exists_of_any (x := outcome) h
    exact ⟨x, rfl, hx⟩

namespace Agrees

variable {stops stops' : Prop} {R : α → β → Prop} {S : γ → δ → Prop} {p : Program α}
  {r : Except Error β}

theorem lift (r : Except Error α) : Agrees stops Eq (liftM r : Program α) r := by
  cases r with
  | ok x => exact .ok rfl
  | error e => exact .error e

/-- A program that has no reason to stop. -/
theorem of_not (h : Agrees stops R p r) (hstops : ¬stops) : Agrees stops' R p r := by
  cases h with
  | ok hx => exact .ok hx
  | error e => exact .error e
  | stop h => exact absurd h hstops

/-- What the results stand for may be looked at in another way. -/
theorem imp {y : β} {y' : δ} {R' : α → δ → Prop} (h : Agrees stops R p (.ok y))
    (hR : ∀ x, R x y → R' x y') : Agrees stops R' p (.ok y') := by
  cases h with
  | ok hx => exact .ok (hR _ hx)
  | stop h => exact .stop h

theorem imp_error {e : Error} {R' : α → δ → Prop} (h : Agrees stops R p (.error e)) :
    Agrees stops R' p (.error e) := by
  cases h with
  | error e => exact .error e
  | stop h => exact .stop h

theorem bind {f : α → Program γ} {g : β → Except Error δ} (h : Agrees stops R p r)
    (hf : ∀ x y, r = .ok y → R x y → Agrees stops S (f x) (g y)) :
    Agrees stops S (p >>= f) (r >>= g) := by
  cases h with
  | ok hx => exact hf _ _ rfl hx
  | error e => exact .error e
  | stop h => exact .stop h

/-- What the program does with its result in the end. -/
theorem map {f : α → γ} {S : γ → β → Prop} (h : Agrees stops R p r)
    (hf : ∀ x y, R x y → S (f x) y) : Agrees stops S (p >>= fun x => pure (f x)) r := by
  cases h with
  | ok hx => exact .ok (hf _ _ hx)
  | error e => exact .error e
  | stop h => exact .stop h

/-- The same check in both. -/
theorem bind_lift {f : β → Program γ} {g : β → Except Error δ}
    (hf : ∀ y, r = .ok y → Agrees stops S (f y) (g y)) :
    Agrees stops S ((liftM r : Program β) >>= f) (r >>= g) := by
  refine (lift r).bind fun x y hy hx => ?_
  subst hx
  exact hf x hy

theorem ite {c : Prop} [Decidable c] {q : Program α} {s : Except Error β}
    (hp : c → Agrees stops R p r) (hq : ¬c → Agrees stops R q s) :
    Agrees stops R (if c then p else q) (if c then r else s) := by
  by_cases hc : c
  · rw [if_pos hc, if_pos hc]
    exact hp hc
  · rw [if_neg hc, if_neg hc]
    exact hq hc

/-- Only a program that checks its results may be right where one is no word, because it stops. -/
theorem bind_reduce {a : Arithmetic} {n : Nat} {f : Nat → Program α}
    (hwrapping : a = .wrapping → n < wordSize) (hstops : wordSize ≤ n → stops)
    (hf : n < wordSize → Agrees stops R (f n) r) : Agrees stops R (liftM (a.reduce n) >>= f) r := by
  by_cases h : n < wordSize
  · rw [a.reduce_of_lt h]
    exact hf h
  · cases a with
    | checked =>
      rw [Arithmetic.reduce, if_neg h]
      exact .stop (hstops (Nat.not_lt.mp h))
    | wrapping => exact absurd (hwrapping rfl) h

theorem bind_add {a : Arithmetic} {m n : Nat} {f : Nat → Program α}
    (hwrapping : a = .wrapping → m + n < wordSize) (hstops : wordSize ≤ m + n → stops)
    (hf : m + n < wordSize → Agrees stops R (f (m + n)) r) :
    Agrees stops R (liftM (a.add m n) >>= f) r :=
  bind_reduce hwrapping hstops hf

theorem bind_mul {a : Arithmetic} {m n : Nat} {f : Nat → Program α}
    (hwrapping : a = .wrapping → m * n < wordSize) (hstops : wordSize ≤ m * n → stops)
    (hf : m * n < wordSize → Agrees stops R (f (m * n)) r) :
    Agrees stops R (liftM (a.mul m n) >>= f) r :=
  bind_reduce hwrapping hstops hf

theorem bind_sub {a : Arithmetic} {m n : Nat} {f : Nat → Program α} (hle : n ≤ m)
    (hf : Agrees stops R (f (m - n)) r) : Agrees stops R (liftM (a.sub m n) >>= f) r := by
  rw [a.sub_of_le hle]
  exact hf

/-- A sum may wrap if what is taken from it afterwards leaves a word. -/
theorem bind_add_sub {a : Arithmetic} {m n k : Nat} {f : Nat → Program α} (hm : m < wordSize)
    (hn : n < wordSize) (hle : k ≤ m + n) (hwrapping : a = .wrapping → m + n - k < wordSize)
    (hstops : a = .checked → wordSize ≤ m + n → stops) (hf : Agrees stops R (f (m + n - k)) r) :
    Agrees stops R (liftM (a.add m n) >>= fun sum => liftM (a.sub sum k) >>= f) r := by
  by_cases h : m + n < wordSize
  · rw [a.add_of_lt h]
    exact bind_sub hle hf
  · cases a with
    | checked =>
      rw [Arithmetic.add, Arithmetic.reduce, if_neg h]
      exact .stop (hstops rfl (Nat.not_lt.mp h))
    | wrapping =>
      have hword := hwrapping rfl
      have hadd : Arithmetic.wrapping.add m n = some (m + n - wordSize) := by
        have hmod : (m + n) % wordSize = m + n - wordSize :=
          (Nat.mod_eq_sub_mod (Nat.not_lt.mp h)).trans (Nat.mod_eq_of_lt (by omega))
        rw [Arithmetic.add, Arithmetic.reduce, if_neg h, hmod]
      have hsub : Arithmetic.wrapping.sub (m + n - wordSize) k = some (m + n - k) := by
        rw [Arithmetic.sub, if_neg (by omega)]
        exact congrArg some (by omega)
      rw [hadd, some_bind, hsub]
      exact hf

/-- A program that may not stop. -/
theorem run_eq {g : β → α} (h : Agrees False (fun x y => x = g y) p r) :
    p.run = some (r.map g) := by
  cases h with
  | ok hx => exact congrArg (some ∘ Except.ok) hx
  | error e => rfl
  | stop h => exact h.elim

/-- A program that gives a result has not stopped. -/
theorem exists_of_run_ok {x : α} (h : Agrees stops R p r) (hp : p.run = some (.ok x)) :
    ∃ y, r = .ok y ∧ R x y := by
  cases h with
  | ok hx =>
    cases hp
    exact ⟨_, rfl, hx⟩
  | error e => cases hp
  | stop h => cases hp

/-- A program that has no reason to stop gives a result if the function does. -/
theorem exists_run_ok {y : β} (h : Agrees stops R p r) (hstops : ¬stops) (hr : r = .ok y) :
    ∃ x, p.run = some (.ok x) ∧ R x y := by
  cases h with
  | ok hx =>
    cases hr
    exact ⟨_, rfl, hx⟩
  | error e => cases hr
  | stop h => exact absurd h hstops

end Agrees

end Program

namespace Change

variable {S B T α β γ : Type}

/-! What a change does is computed from the left. -/

section

variable (s : S)

@[simp] theorem on_get_bind (f : S → Change S α) : (get >>= f).on s = (f s).on s := rfl

@[simp] theorem on_set_bind (s' : S) (f : PUnit → Change S α) :
    (set s' >>= f).on s = (f ⟨⟩).on s' := rfl

@[simp] theorem on_some_bind (x : β) (f : β → Change S α) :
    ((liftM (some x) : Change S β) >>= f).on s = (f x).on s := rfl

@[simp] theorem on_pure (x : α) : (pure x : Change S α).on s = some (.ok x, s) := rfl

end

/-- What comes of a change of a part. -/
theorem on_within (part : T → S) (replace : T → S → T) (c : Change S β) (f : β → α) (t : T) :
    (do return f (← within part replace c) : Change T α).on t =
      (c.on (part t)).bind fun (x, s) => some (x.map f, replace t s) := by
  show ((c.on (part t)).bind fun (x, s) => some (x, replace t s)).bind _ = _
  rw [Option.bind_assoc]
  congr
  funext (x, s)
  cases x <;> rfl

/-- What comes of a change agrees with a function: it gives the error of the function and leaves
everything as it was, or it gives the answer and leaves what stands for the result. -/
inductive Agrees (R : S → B → Prop) (s : S) (answer : α) :
    Option (Except Error α × S) → Except Error B → Prop
  | ok {s' : S} {b : B} : R s' b → Agrees R s answer (some (.ok answer, s')) (.ok b)
  | error (e : Error) : Agrees R s answer (some (.error e, s)) (.error e)

namespace Agrees

variable {R : S → B → Prop} {s : S} {answer : α}

/-- The same check in both, before anything is changed. -/
theorem bind_lift {r : Except Error β} {f : β → Change S α} {g : β → Except Error B}
    (hf : ∀ y, r = .ok y → Agrees R s answer ((f y).on s) (g y)) :
    Agrees R s answer (((liftM r : Change S β) >>= f).on s) (r >>= g) := by
  cases r with
  | ok y => exact hf y rfl
  | error e => exact .error e

/-- Nothing is changed after a check. -/
theorem guarded {check : Except Error Unit} {change : S → S} {b : B} (h : R (change s) b) :
    Agrees R s none ((Change.guarded (α := α) check change).on s) (do check; return b) :=
  bind_lift fun _ _ => .ok h

/-- A change of a part is one of the whole. -/
theorem within {part : T → S} {replace : T → S → T} {c : Change S β} {t : T} {answer : β}
    {r : Except Error B} {C : Type} {R' : T → C → Prop} {f : β → α} (g : B → C)
    (hself : replace t (part t) = t) (h : Agrees R (part t) answer (c.on (part t)) r)
    (hR : ∀ s b, R s b → R' (replace t s) (g b)) :
    Agrees R' t (f answer) ((do return f (← Change.within part replace c) : Change T α).on t)
      (do return g (← r)) := by
  rw [on_within]
  generalize c.on (part t) = outcome at h
  cases h with
  | ok hs => exact .ok (hR _ _ hs)
  | error e =>
    show Agrees R' t _ (some (.error e, replace t (part t))) (.error e)
    rw [hself]
    exact .error e

end Agrees

end Change

end SpaceLink
