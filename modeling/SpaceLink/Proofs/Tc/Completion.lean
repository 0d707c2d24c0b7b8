import SpaceLink.Proofs.Completion
import SpaceLink.Proofs.Tc.Builder

/-! # What is missing from a TC frame -/

namespace SpaceLink.Tc

namespace Builder

/-- What may be missing when a TC frame is built, in the order in which it is looked for. -/
def faults (plan : Plan) (t : Told) : List Fault :=
  t.request.faults plan.config.dataOverhead plan.room ++
    [⟨plan.config.segmented && t.segmentHeader?.isNone, .fieldUnset .segmentHeader⟩]

section

variable {b : Builder} {plan : Plan} {t : Told}

theorem Obeys.segmentHeader_reportsFirst (h : b.Obeys plan t) : ReportsFirst b.segmentHeader
    [⟨plan.config.segmented && t.segmentHeader?.isNone, .fieldUnset .segmentHeader⟩] := by
  rw [Builder.segmentHeader, h.agreed, h.segmentHeader]
  dsimp only
  cases plan.config.segmented with
  | false => exact .of_ok rfl
  | true =>
    cases t.segmentHeader? with
    | none => exact .of_error rfl
    | some x => exact .of_ok rfl

theorem Obeys.build_reportsFirst (h : b.Obeys plan t) (hp : plan.Sound) :
    ReportsFirst b.build (faults plan t) := by
  refine h.draft.finish_reportsFirst.bind fun contents hc => ?_
  refine .bind_one h.segmentHeader_reportsFirst fun segmentBytes hs => ?_
  obtain ⟨f, hf⟩ := h.exists_decode hp hc hs
  rw [hf]
  exact .of_ok rfl

end

end Builder

end SpaceLink.Tc
