import SpaceLink.Proofs.Tm.Staged
import SpaceLink.Proofs.Aos.Staged
import SpaceLink.Proofs.Tc.Staged

/-!
# What builders answer

After any steps, refused ones among them, the frame is built exactly if nothing is missing and its
pointer does not lead out of it. Otherwise the first fault in the order of the list is reported. No
builder makes bytes that its decoder refuses for any other reason.

This needs the lengths of the parts together to be a word. If they are not, a program that checks its
sums stops before there is a builder. In wrapping arithmetic there may be one
(`wrapped_builder_stops`), with space for user data that it has no place for. The bits of a bitstream
have to be as many as words can count.
-/

namespace SpaceLink

theorem builders_determined (a : Arithmetic) :
    (∀ (length : Nat) (plan : Tm.Builder.Plan) (m : Tm.StagedBuilder), length < wordSize →
      (a = .wrapping → plan.overhead.total < wordSize) →
      (Tm.StagedBuilder.create a length plan.secondaryHeaderLength plan.ocfPresent
        plan.config).run = some (.ok m) →
      let capacity := length - plan.overhead.total
      (Tm.StagedBuilder.machine a).Determined .addData Tm.Builder.Step.data m capacity fun taken =>
        Tm.Builder.faults plan capacity (Tm.Builder.told plan taken)) ∧
    (∀ (length : Nat) (config : Aos.Config) (m : Aos.StagedBuilder), length < wordSize →
      (a = .wrapping →
        config.overhead.total + Aos.pduHeaderOf config.userDataType < wordSize) →
      (Aos.StagedBuilder.create a length config).run = some (.ok m) →
      let capacity := length - config.overhead.total - Aos.pduHeaderOf config.userDataType
      (config.userDataType = .bpdu → 8 * capacity < wordSize) →
      (Aos.StagedBuilder.machine a).Determined .addData Aos.Builder.Step.data m capacity
        fun taken => Aos.Builder.faults config capacity (Aos.Builder.told config.userDataType taken)) ∧
    (∀ (length : Nat) (config : Tc.Config) (m : Tc.StagedBuilder),
      (a = .wrapping → config.dataOverhead.total < wordSize) →
      (Tc.StagedBuilder.create a length config).run = some (.ok m) →
      let plan : Tc.Builder.Plan := { frameLength := length, config, command? := none }
      (Tc.StagedBuilder.machine a).Determined .addData Tc.Builder.Step.data m plan.room
        fun taken => Tc.Builder.faults plan (Tc.Builder.told plan taken)) ∧
    ∀ (command : Tc.ControlCommand) (fecfPresent : Bool) (m : Tc.StagedBuilder),
      (Tc.StagedBuilder.ofCommand a command fecfPresent).run = some (.ok m) →
      (Tc.StagedBuilder.machine a).Determined .addData Tc.Builder.Step.data m 0 fun _ => [] :=
  ⟨fun _ _ _ => Tm.StagedBuilder.determined a, fun _ _ _ => Aos.StagedBuilder.determined a,
    fun _ _ _ => Tc.StagedBuilder.determined a, fun _ _ _ => Tc.StagedBuilder.determined_ofCommand a⟩

section

variable {M Step S : Type} {k : Machine M Step S} {addData : Bytes → Step} {data : Step → Bytes}
  {m : M} {capacity : Nat} {faults : List Step → List Fault}

/-- What building reports is known from the accepted steps. -/
theorem Machine.Determined.build_eq (h : k.Determined addData data m capacity faults)
    (steps taken : List Step) (e : Error) (htaken : (k.run m steps).map (·.1) = some taken)
    (he : firstFault? (faults taken) = some e) :
    ∃ m', k.run m steps = some (taken, m') ∧ (k.build m').run = some (.error e) := by
  obtain ⟨taken, m', hrun, hanswers⟩ := h steps
  rw [hrun] at htaken
  cases htaken
  obtain ⟨outcome, hbuild, hreports, -⟩ := hanswers.build
  exact ⟨m', hrun, by rw [hbuild, (hreports.error e).mpr he]⟩

theorem Machine.Determined.exists_build (h : k.Determined addData data m capacity faults)
    (steps : List Step) (hfaults : ∀ taken, ∀ fault ∈ faults taken, fault.applies = false) :
    ∃ taken m' s, k.run m steps = some (taken, m') ∧ (k.build m').run = some (.ok s) := by
  obtain ⟨taken, m', hrun, hanswers⟩ := h steps
  obtain ⟨outcome, hbuild, hreports, -⟩ := hanswers.build
  obtain ⟨s, rfl⟩ := hreports.accepts.mpr (hfaults taken)
  exact ⟨taken, m', s, hrun, hbuild⟩

end

/-- Of each kind, a builder that still has something missing after steps of which some are refused.
A frame without room for user data has no place for a pointer to point to. -/
theorem builders_determined_refusals :
    let tm : Tm.Config := { securityHeaderLength := 1, securityTrailerLength := 2 }
    let aos : Aos.Config := { insertZoneLength := 1 }
    let tc : Tc.Config := { segmented := true }
    (∃ m m', (Tm.StagedBuilder.create .wrapping 22 3 true tm).run = some (.ok m) ∧
      (Tm.StagedBuilder.machine .wrapping).run m [.addData [1, 2, 3, 4], .securityHeader [7],
          .securityTrailer [5], .secondaryHeader [1, 2, 3]] =
        some ([.addData [1, 2, 3, 4], .securityHeader [7], .secondaryHeader [1, 2, 3]], m') ∧
      (Tm.StagedBuilder.build .wrapping m').run =
        some (.error (.fieldUnset .securityTrailer))) ∧
    (∃ m m', (Tm.StagedBuilder.create .checked 8 0 false {}).run = some (.ok m) ∧
      (Tm.StagedBuilder.machine .checked).run m [] = some ([], m') ∧
      (Tm.StagedBuilder.build .checked m').run =
        some (.error (.pointer .firstHeaderPointer 0 0))) ∧
    (∃ m m', (Aos.StagedBuilder.create .wrapping 13 aos).run = some (.ok m) ∧
      (Aos.StagedBuilder.machine .wrapping).run m [.addData [1, 2], .insertZone [9, 9],
          .bitstreamDataPointer 0, .insertZone [9]] =
        some ([.addData [1, 2], .insertZone [9]], m') ∧
      (Aos.StagedBuilder.build .wrapping m').run =
        some (.error (.fieldUnset .firstHeaderPointer))) ∧
    (∃ m m', (Tc.StagedBuilder.create .wrapping 8 tc).run = some (.ok m) ∧
      (Tc.StagedBuilder.machine .wrapping).run m [.segmentHeader .first 64] = some ([], m') ∧
      (Tc.StagedBuilder.build .wrapping m').run = some (.error (.fieldUnset .segmentHeader))) ∧
    ∃ m taken m' f, (Tc.StagedBuilder.ofCommand .checked .unlock true).run = some (.ok m) ∧
      (Tc.StagedBuilder.machine .checked).run m [.addData [1], .segmentHeader .first 1] =
        some (taken, m') ∧
      (Tc.StagedBuilder.build .checked m').run = some (.ok f) := by
  intro tm aos tc
  obtain ⟨htm, haos, htc, -⟩ := builders_determined .wrapping
  obtain ⟨htm', -, -, hcommand⟩ := builders_determined .checked
  refine ⟨?_, ?_, ?_, ?_, ?_⟩
  · obtain ⟨m', hrun, hbuild⟩ := Machine.Determined.build_eq
      (htm 22 ⟨3, true, tm⟩ _ (by decide) (by decide) rfl)
      [.addData [1, 2, 3, 4], .securityHeader [7], .securityTrailer [5], .secondaryHeader [1, 2, 3]]
      [.addData [1, 2, 3, 4], .securityHeader [7], .secondaryHeader [1, 2, 3]]
      (.fieldUnset .securityTrailer) (by decide +kernel) (by decide +kernel)
    exact ⟨_, m', rfl, hrun, hbuild⟩
  · obtain ⟨m', hrun, hbuild⟩ := Machine.Determined.build_eq
      (htm' 8 ⟨0, false, {}⟩ _ (by decide) (by decide) rfl) [] []
      (.pointer .firstHeaderPointer 0 0) (by decide +kernel) (by decide +kernel)
    exact ⟨_, m', rfl, hrun, hbuild⟩
  · obtain ⟨m', hrun, hbuild⟩ := Machine.Determined.build_eq
      (haos 13 aos _ (by decide) (by decide) rfl (by decide))
      [.addData [1, 2], .insertZone [9, 9], .bitstreamDataPointer 0, .insertZone [9]]
      [.addData [1, 2], .insertZone [9]]
      (.fieldUnset .firstHeaderPointer) (by decide +kernel) (by decide +kernel)
    exact ⟨_, m', rfl, hrun, hbuild⟩
  · obtain ⟨m', hrun, hbuild⟩ := Machine.Determined.build_eq (htc 8 tc _ (by decide) rfl)
      [.segmentHeader .first 64] []
      (.fieldUnset .segmentHeader) (by decide +kernel) (by decide +kernel)
    exact ⟨_, m', rfl, hrun, hbuild⟩
  · obtain ⟨taken, m', f, hrun, hbuild⟩ := (hcommand .unlock true _ rfl).exists_build
      [.addData [1], .segmentHeader .first 1] fun _ _ h => absurd h List.not_mem_nil
    exact ⟨_, taken, m', f, rfl, hrun, hbuild⟩

/-- A builder that is accepted though the lengths of its parts together are no word. It has space for
20 bytes of user data, and stops when they are added. If sums are checked, it stops when it is
created. -/
theorem wrapped_builder_stops :
    let config : Tm.Config := { fecfPresent := false, securityTrailerLength := wordSize - 6 }
    (Tm.StagedBuilder.create .checked 20 0 false config).run = none ∧
    ∃ m, (Tm.StagedBuilder.create .wrapping 20 0 false config).run = some (.ok m) ∧
      m.staging.free .wrapping = some 20 ∧
      (Tm.StagedBuilder.perform .wrapping (.addData (zeros 20))).on m = none :=
  ⟨rfl, _, rfl, rfl, rfl⟩

end SpaceLink
