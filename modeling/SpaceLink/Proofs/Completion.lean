import SpaceLink.Proofs.Draft
import SpaceLink.Proofs.Faults

/-!
# What is missing from a frame

A builder refuses to build a frame from which something is missing, and says what. The faults of a
frame under construction are listed in the order in which they are looked for, each with the
condition on what the builder has been told: `Draft.Answers.finish_reportsFirst` has those of
every kind of frame.
-/

namespace SpaceLink

/-! ## Parts and drafts -/

section

variable {len : Nat} {told? : Option Bytes}

theorem Part.Told.get_reportsFirst {p : Part} (h : p.Told len told?) (field : Field) :
    ReportsFirst (p.get field) [⟨0 < len && told?.isNone, .fieldUnset field⟩] := by
  cases ht : told? with
  | some d =>
    rw [h.get_of_isSome (.inl (ht ▸ rfl))]
    exact .cons (Bool.and_false _) (.of_ok rfl)
  | none =>
    rcases Nat.eq_zero_or_pos len with hl | hl
    · rw [h.get_of_isSome (.inr hl), hl]
      exact .of_ok rfl
    · have hnone : p.content? = none := by
        rw [h.content, ht, Option.none_or, if_neg (Nat.ne_of_gt hl)]
      rw [Part.get, hnone]
      exact .of_applies ⟨0 < len && true, .fieldUnset field⟩ (by simpa using hl)

theorem Part.Told?.get_reportsFirst {p? : Option Part} {present : Bool}
    (h : Part.Told? p? len present told?) (hpos : present = true → 0 < len) (field : Field) :
    ReportsFirst (Part.get? p? field) [⟨present && told?.isNone, .fieldUnset field⟩] := by
  cases p? with
  | none =>
    rw [h.1]
    exact .of_ok rfl
  | some p =>
    obtain ⟨hp, h⟩ := h
    have hget := h.get_reportsFirst field
    rw [decide_eq_true (hpos hp), ← hp] at hget
    exact hget.bind_one fun _ _ => .of_ok rfl

end

/-- What may be missing from a frame of any kind: user data, and then the parts that are declared
and have not been asked for. -/
def Request.faults (r : Request) (o : Overhead) (room : Nat) : List Fault :=
  let free := room - min room r.userData.length
  [⟨0 < free, .notFull free⟩,
    ⟨0 < o.securityHeader && r.securityHeader?.isNone, .fieldUnset .securityHeader⟩,
    ⟨0 < o.securityTrailer && r.securityTrailer?.isNone, .fieldUnset .securityTrailer⟩,
    ⟨o.ocfPresent && r.ocf?.isNone, .fieldUnset .ocf⟩]

namespace Draft.Answers

variable {b : Draft} {o : Overhead} {room : Nat} {r : Request}

theorem free_eq (h : b.Answers o room r) : b.free = room - min room r.userData.length := by
  rw [free, h.capacity, h.userData, List.length_take]

theorem finish_reportsFirst (h : b.Answers o room r) :
    ReportsFirst b.finish (r.faults o room) := by
  rw [Draft.finish, Request.faults, ← h.free_eq]
  refine .ite (decide_eq_true_iff.trans Nat.pos_iff_ne_zero) fun _ => ?_
  refine .bind_one (h.securityHeader.get_reportsFirst _) fun _ _ => ?_
  refine .bind_one (h.securityTrailer.get_reportsFirst _) fun _ _ => ?_
  exact .bind_one (h.ocf.get_reportsFirst (fun _ => Nat.zero_lt_succ 3) _) fun _ _ => .of_ok rfl

end Draft.Answers

/-- The error says that the frame is not complete, or that its pointer leads out of it. -/
def Error.OfIncomplete : Error → Prop
  | .notFull _ | .fieldUnset _ | .pointer _ _ _ => True
  | _ => False

theorem ReportsFirst.exists_fault {α : Type} {x : Except Error α} {faults : List Fault}
    (hx : ReportsFirst x faults) {e : Error} (h : x = .error e) :
    ∃ fault ∈ faults, fault.error = e := by
  obtain ⟨fault, hfault, he⟩ := Option.map_eq_some_iff.mp ((hx.error e).mp h)
  exact ⟨fault, List.mem_of_find?_eq_some hfault, he⟩

end SpaceLink
