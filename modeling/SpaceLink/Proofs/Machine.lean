import SpaceLink.Staging
import SpaceLink.Proofs.Completion
import SpaceLink.Proofs.Words

/-!
# Builders in memory

`FrameBuilder` is what the builders of all kinds have in common. A machine `Implements` a builder if
each step, and the building of the frame, does in memory what it does to the builder. If this is so
all along (`Machine.Follows`), then a sequence of steps does so as well (`Machine.Follows.run_eq`), and
what the machine answers after it is determined by the steps that it has accepted
(`Machine.Follows.determined`).
-/

namespace SpaceLink

/-- What builders of all kinds have in common. -/
class FrameBuilder (B : Type) (Step Frame : outParam Type) where
  apply : B → Step → Except Error B
  addData : Bytes → Step
  /-- The user data that a step adds. -/
  data : Step → Bytes
  draft : B → Draft
  build : B → Except Error Frame
  /-- How many bytes a step that adds data leaves over. -/
  left? : B → Step → Option Nat
  left?_addData : ∀ b d, left? b (addData d) = some ((draft b).leftover d)
  exists_addData : ∀ b d, ∃ b', apply b (addData d) = .ok b'
  data_of_error : ∀ {b s e}, apply b s = .error e → data s = []

namespace Machine

variable {M Step S B Frame : Type}

/-- Makes all steps. Gives those that were accepted, and what is in memory in the end. -/
def run (k : Machine M Step S) (m : M) : List Step → Option (List Step × M)
  | [] => some ([], m)
  | s :: steps => do
    let (answer, m) ← (k.perform s).on m
    let (taken, m) ← run k m steps
    match answer with
    | .ok _ => return (s :: taken, m)
    | .error _ => return (taken, m)

/-- What a machine answers while there is space for `space` more bytes of user data. -/
structure Answers (k : Machine M Step S) (addData : Bytes → Step) (m : M) (space : Nat)
    (faults : List Fault) : Prop where
  unchanged : ∀ s e m', (k.perform s).on m = some (.error e, m') → m' = m
  free : k.free m = some space
  leftover : ∀ d, ∃ m', (k.perform (addData d)).on m = some (.ok (some (d.length - space)), m')
  build : ∃ outcome, (k.build m).run = some outcome ∧ ReportsFirst outcome faults ∧
    ∀ e, outcome = .error e → e.OfIncomplete

/-- What a machine that has room for `capacity` bytes of user data does after any steps. -/
def Determined (k : Machine M Step S) (addData : Bytes → Step) (data : Step → Bytes) (m : M)
    (capacity : Nat) (faults : List Step → List Fault) : Prop :=
  ∀ steps, ∃ taken m', k.run m steps = some (taken, m') ∧
    k.Answers addData m' (capacity - min capacity (steps.flatMap data).length) (faults taken)

/-- The machine accepts all of the steps and builds a frame. -/
def Builds (k : Machine M Step S) (m : M) (steps : List Step) (s : S) : Prop :=
  ∃ m', k.run m steps = some (steps, m') ∧ (k.build m').run = some (.ok s)

section

variable [FrameBuilder B Step Frame]

open FrameBuilder

/-- What the machine does in memory is what is done to the builder. -/
structure Implements (k : Machine M Step S) (staged : B → M) (stored : Frame → S) (b : B) :
    Prop where
  perform : ∀ s, Change.Agrees (fun m b => m = staged b) (staged b) (left? b s)
    ((k.perform s).on (staged b)) (apply b s)
  free : k.free (staged b) = some (draft b).free
  build : (k.build (staged b)).Agrees False (fun s f => s = stored f) (FrameBuilder.build b)

/-- The machine implements every builder of which `p` holds with the steps it has accepted. Every
accepted step keeps `p`. -/
structure Follows (k : Machine M Step S) (staged : B → M) (stored : Frame → S)
    (p : List Step → B → Prop) : Prop where
  implements : ∀ taken b, p taken b → k.Implements staged stored b
  keeps : ∀ taken b s b', p taken b → apply b s = .ok b' → p (taken ++ [s]) b'

variable {k : Machine M Step S} {staged : B → M} {stored : Frame → S} {p : List Step → B → Prop}

theorem Follows.run_eq (hk : k.Follows staged stored p) {taken : List Step} {b : B}
    (h : p taken b) (steps : List Step) :
    k.run (staged b) steps = some (accepted apply b steps, staged (attemptAll apply b steps)) := by
  induction steps generalizing taken b with
  | nil => rfl
  | cons s steps ih =>
    have hs := (hk.implements taken b h).perform s
    show k.run _ _ = some (_, staged (attemptAll apply (attempt apply b s) steps))
    rw [run, accepted, attempt]
    generalize hafter : (k.perform s).on (staged b) = after at hs
    generalize happly : apply b s = applied at hs
    cases hs with
    | ok hm =>
      subst hm
      simp only [Option.bind_eq_bind, Option.bind_some, ih (hk.keeps taken b s _ h happly)]
      rfl
    | error e =>
      simp only [Option.bind_eq_bind, Option.bind_some, ih h]
      rfl

theorem Implements.answers {b : B} {faults : List Fault} (h : k.Implements staged stored b)
    (hbuild : ReportsFirst (FrameBuilder.build b) faults)
    (hfaults : ∀ fault ∈ faults, fault.error.OfIncomplete) :
    k.Answers (addData B) (staged b) (draft b).free faults where
  unchanged s e m' hm := by
    have hs := h.perform s
    rw [hm] at hs
    generalize apply b s = applied at hs
    cases hs
    rfl
  free := h.free
  leftover d := by
    have hs := h.perform (addData B d)
    obtain ⟨b', hb'⟩ := exists_addData b d
    rw [left?_addData, hb'] at hs
    generalize (k.perform (addData B d)).on (staged b) = after at hs
    cases hs
    exact ⟨_, rfl⟩
  build := by
    refine ⟨_, h.build.run_eq, hbuild.map stored, fun e he => ?_⟩
    obtain ⟨fault, hmem, rfl⟩ := (hbuild.map stored).exists_fault he
    exact hfaults fault hmem

/-- Only steps that are refused are lost, and they add no data. -/
theorem flatMap_data_accepted (b : B) (steps : List Step) :
    (accepted apply b steps).flatMap (data B) = steps.flatMap (data B) := by
  induction steps generalizing b with
  | nil => rfl
  | cons s steps ih =>
    rw [accepted, List.flatMap_cons]
    cases hs : apply b s with
    | ok b' => exact (List.flatMap_cons ..).trans (congrArg (data B s ++ ·) (ih b'))
    | error e => rw [data_of_error hs, List.nil_append]; exact ih b

/-- All that is to be shown of a kind of frame is what one step keeps, and how the space left and the
faults depend on the steps. -/
theorem Follows.determined (hk : k.Follows staged stored p) {capacity : Nat}
    {faults : List Step → List Fault}
    (hfree : ∀ taken b, p taken b →
      (draft b).free = capacity - min capacity (taken.flatMap (data B)).length)
    (hbuild : ∀ taken b, p taken b → ReportsFirst (FrameBuilder.build b) (faults taken))
    (hfaults : ∀ taken, ∀ fault ∈ faults taken, fault.error.OfIncomplete) {b : B} (h : p [] b) :
    k.Determined (addData B) (data B) (staged b) capacity faults := by
  intro steps
  have hp := attemptAll_accepted apply h hk.keeps steps
  refine ⟨_, _, hk.run_eq h steps, ?_⟩
  rw [← flatMap_data_accepted b steps, ← hfree _ _ hp]
  exact (hk.implements _ _ hp).answers (hbuild _ _ hp) (hfaults _)

/-- What a builder builds is built in memory. -/
theorem Follows.builds (hk : k.Follows staged stored p) {b : B} (h : p [] b) {steps : List Step}
    (haccepted : accepted apply b steps = steps) {f : Frame}
    (hbuild : FrameBuilder.build (attemptAll apply b steps) = .ok f) :
    k.Builds (staged b) steps (stored f) := by
  have hp := attemptAll_accepted apply h hk.keeps steps
  have hrun := hk.run_eq h steps
  rw [haccepted] at hrun
  refine ⟨_, hrun, ?_⟩
  rw [(hk.implements _ _ hp).build.run_eq, hbuild]
  rfl

end

end Machine

end SpaceLink
