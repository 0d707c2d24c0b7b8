import SpaceLink.Proofs.Corruption
import SpaceLink.Proofs.Decoding

/-!
# What strict checking adds

The faults that a decoder looks for without strictness are those that it looks for with it, less the
checks that do not match (`Fault.lenient`). So strictness refuses the frames whose checks do not
match and has no other effect, although the checks stand between other tests (`AddsChecks`,
`AddsChecks.of_faults`). `strict_adds_checks` says this of every decoder, and what the check of a
frame depends on.
-/

namespace SpaceLink

/-- The error is a check that does not match. -/
def Error.ofCheck : Error → Bool
  | .fecf _ _ | .fhec => true
  | .notEnoughData _ _ | .version _ _ | .frameLength _ _ | .pointer _ _ _ | .outOfRange _ _ _
  | .fieldLength _ _ _ | .notFull _ | .fieldUnset _ | .userDataType _ _ _ | .idleFrame | .syncFlag
  | .vcidMismatch _ _ | .accessMode _ => false

/-- What strictness adds to a decoder: frames that do not pass its checks are refused, and only
these. -/
structure AddsChecks {F : Type} (decode : (strict : Bool) → Except Error F) (passes : F → Bool) :
    Prop where
  accepts : ∀ f, decode true = .ok f ↔ decode false = .ok f ∧ passes f = true
  lenient : ∀ e, decode false = .error e → e.ofCheck = false
  /-- A check that does not match may hide another error, but not be hidden as no error at all. -/
  refuses : ∀ e, decode true = .error e → e.ofCheck = true ∨ decode false = .error e

/-- The fault as it is looked for without strictness. -/
def Fault.lenient (fault : Fault) : Fault :=
  { fault with applies := fault.applies && !fault.error.ofCheck }

theorem ofCheck_of_lenient {faults : List Fault} {e : Error}
    (h : firstFault? (faults.map Fault.lenient) = some e) : e.ofCheck = false := by
  obtain ⟨fault, hfault, rfl⟩ := Option.map_eq_some_iff.mp h
  obtain ⟨strict, -, rfl⟩ := List.mem_map.mp (List.mem_of_find?_eq_some hfault)
  have happlies : strict.lenient.applies = true :=
    List.find?_some (p := fun fault : Fault => fault.applies) hfault
  simp only [Fault.lenient, Bool.and_eq_true, Bool.not_eq_true'] at happlies
  exact happlies.2

/-- An error that is no check is the first one without strictness too. -/
theorem firstFault?_lenient {faults : List Fault} {e : Error} (h : firstFault? faults = some e)
    (he : e.ofCheck = false) : firstFault? (faults.map Fault.lenient) = some e := by
  induction faults with
  | nil => cases h
  | cons fault faults ih =>
    rw [List.map_cons, firstFault?_cons]
    rw [firstFault?_cons] at h
    cases happlies : fault.applies with
    | true =>
      simp only [happlies, if_true, Option.some.injEq] at h
      subst h
      simp [Fault.lenient, happlies, he]
    | false =>
      simp only [happlies, Bool.false_eq_true, if_false] at h
      simpa [Fault.lenient, happlies] using ih h

theorem AddsChecks.of_faults {F : Type} {decode : Bool → Except Error F} {passes : F → Bool}
    {faults : List Fault} (hstrict : ReportsFirst (decode true) faults)
    (hlenient : ReportsFirst (decode false) (faults.map Fault.lenient))
    (accepts : ∀ f, decode true = .ok f ↔ decode false = .ok f ∧ passes f = true) :
    AddsChecks decode passes where
  accepts := accepts
  lenient e h := ofCheck_of_lenient ((hlenient.error e).mp h)
  refuses e h := by
    cases he : e.ofCheck with
    | true => exact .inl rfl
    | false =>
      exact .inr ((hlenient.error e).mpr (firstFault?_lenient ((hstrict.error e).mp h) he))

/-! ## The decoders -/

theorem Fault.lenient_mk (applies : Bool) (error : Error) :
    lenient ⟨applies, error⟩ = ⟨applies && !error.ofCheck, error⟩ := rfl

theorem fecfFault_lenient (d : Bytes) (fecfPresent : Bool) :
    (fecfFault d true fecfPresent).lenient = fecfFault d false fecfPresent := by
  simp [fecfFault, Fault.lenient, Error.ofCheck]

theorem Tm.faults_lenient (d : Bytes) (c : Config) :
    (faults d { c with strict := true }).map Fault.lenient = faults d { c with strict := false } := by
  simp only [faults, versionFaults, tooShort, List.map_append, List.map_cons, List.map_nil,
    fecfFault_lenient, Fault.lenient_mk, Error.ofCheck, Bool.not_false, Bool.and_true]
  rfl

theorem Aos.faults_lenient (d : Bytes) (c : Config) :
    (faults d { c with strict := true }).map Fault.lenient = faults d { c with strict := false } := by
  simp only [faults, versionFaults, tooShort, pduFaults, List.map_append, List.map_cons,
    List.map_nil, fecfFault_lenient, Fault.lenient_mk, Error.ofCheck, Bool.not_false, Bool.and_true,
    Bool.not_true, Bool.and_false, Bool.false_and]
  rfl

theorem Tc.faults_lenient (d : Bytes) (c : Config) :
    (faults d { c with strict := true }).map Fault.lenient = faults d { c with strict := false } := by
  simp only [faults, versionFaults, tooShort, List.map_append, List.map_cons, List.map_nil,
    fecfFault_lenient, Fault.lenient_mk, Error.ofCheck, Bool.not_false, Bool.and_true]
  rfl

/-- The check of a frame is looked at if it is declared present, and covers all bytes. -/
theorem FrameBytes.isValid_eq_ite (f : FrameBytes) :
    f.isValid = if f.overhead.fecfPresent then SpaceLink.fecfValid f.bytes else true := by
  split
  · exact isValid_eq_fecfValid ‹_›
  · simp [isValid, fecf?_eq, *]

theorem Tm.Frame.decode_strict_iff (d : Bytes) (c : Config) (f : Frame) :
    Frame.decode d { c with strict := true } = .ok f ↔
      Frame.decode d { c with strict := false } = .ok f ∧ f.isValid = true := by
  rw [decode_eq_ok_iff, decode_eq_ok_iff]
  constructor
  · intro h
    exact ⟨{ h with valid := nofun }, h.valid rfl⟩
  · rintro ⟨h, hvalid⟩
    exact { h with valid := fun _ => hvalid }

theorem Aos.Frame.decode_strict_iff (d : Bytes) (c : Config) (f : Frame) :
    Frame.decode d { c with strict := true } = .ok f ↔
      Frame.decode d { c with strict := false } = .ok f ∧
        (f.isValid && f.isHeaderValid) = true := by
  rw [decode_eq_ok_iff, decode_eq_ok_iff, Bool.and_eq_true]
  constructor
  · intro h
    have hheader : f.isHeaderValid = true := by
      rw [isHeaderValid, h.fhecPresent, h.bytes]
      exact h.headerValid rfl
    have hlenient {p : Prop} (h : false = true) : p := absurd h Bool.false_ne_true
    exact ⟨{ h with headerValid := hlenient, valid := hlenient }, h.valid rfl, hheader⟩
  · rintro ⟨h, hvalid, hheader⟩
    rw [isHeaderValid, h.fhecPresent, h.bytes] at hheader
    exact { h with headerValid := fun _ => hheader, valid := fun _ => hvalid }

theorem Tc.Frame.decode_strict_iff (d : Bytes) (c : Config) (f : Frame) :
    Frame.decode d { c with strict := true } = .ok f ↔
      Frame.decode d { c with strict := false } = .ok f ∧ f.isValid = true := by
  rw [decode_eq_ok_iff, decode_eq_ok_iff]
  constructor
  · intro h
    exact ⟨{ h with valid := nofun }, h.valid rfl⟩
  · rintro ⟨h, hvalid⟩
    exact { h with valid := fun _ => hvalid }

/-- Strictness refuses frames whose checks do not match and nothing else, and whether the check of a
frame matches depends on its bytes alone, once it is agreed that it has one. -/
theorem strict_adds_checks :
    (∀ (d : Bytes) (c : Tm.Config),
      AddsChecks (fun strict => Tm.Frame.decode d { c with strict }) (·.isValid) ∧
      ∀ f, Tm.Frame.decode d c = .ok f →
        f.isValid = if c.fecfPresent then fecfValid d else true) ∧
    (∀ (d : Bytes) (c : Aos.Config),
      AddsChecks (fun strict => Aos.Frame.decode d { c with strict })
        (fun f => f.isValid && f.isHeaderValid) ∧
      ∀ f, Aos.Frame.decode d c = .ok f →
        f.isValid = if c.fecfPresent then fecfValid d else true) ∧
    ∀ (d : Bytes) (c : Tc.Config),
      AddsChecks (fun strict => Tc.Frame.decode d { c with strict }) (·.isValid) ∧
      ∀ f, Tc.Frame.decode d c = .ok f →
        f.isValid = if c.fecfPresent then fecfValid d else true := by
  refine ⟨fun d c => ⟨?_, fun f hf => ?_⟩, fun d c => ⟨?_, fun f hf => ?_⟩,
    fun d c => ⟨?_, fun f hf => ?_⟩⟩
  · refine .of_faults (Tm.Frame.decode_reportsFirst d _) ?_ (Tm.Frame.decode_strict_iff d c)
    exact Tm.faults_lenient d c ▸ Tm.Frame.decode_reportsFirst d _
  · have h := Tm.Frame.decode_eq_ok_iff.mp hf
    obtain ⟨secondary, -, hoverhead⟩ := h.overhead
    rw [f.isValid_eq_ite, h.bytes, hoverhead]
    rfl
  · refine .of_faults (Aos.Frame.decode_reportsFirst d _) ?_ (Aos.Frame.decode_strict_iff d c)
    exact Aos.faults_lenient d c ▸ Aos.Frame.decode_reportsFirst d _
  · have h := Aos.Frame.decode_eq_ok_iff.mp hf
    rw [f.isValid_eq_ite, h.bytes, h.overhead]
    rfl
  · refine .of_faults (Tc.Frame.decode_reportsFirst d _) ?_ (Tc.Frame.decode_strict_iff d c)
    exact Tc.faults_lenient d c ▸ Tc.Frame.decode_reportsFirst d _
  · have h := Tc.Frame.decode_eq_ok_iff.mp hf
    rw [f.isValid_eq_ite, h.bytes, h.overhead, c.fecfPresent_overheadIn]

/-- A wrong check is told apart from a frame without one, for the same bytes. -/
theorem strict_adds_checks_mismatch :
    let d : Bytes := [0x20, 0x0a, 0x04, 0x0a, 0x00, 0x01, 7, 8, 9, 0x82, 0x93]
    let checked : Tc.Config := {}
    let unchecked : Tc.Config := { fecfPresent := false }
    Tc.Frame.decode d { checked with strict := true } = .error (.fecf 0x8293 0x8292) ∧
      ∃ f g, Tc.Frame.decode d checked = .ok f ∧ Tc.Frame.decode d unchecked = .ok g ∧
        f.isValid = false ∧ g.isValid = true := by
  intro d checked unchecked
  obtain ⟨f, hf⟩ := exists_eq_ok_of_isOk (show (Tc.Frame.decode d checked).isOk by decide +kernel)
  obtain ⟨g, hg⟩ := exists_eq_ok_of_isOk (show (Tc.Frame.decode d unchecked).isOk by decide +kernel)
  refine ⟨by decide +kernel, f, g, hf, hg, ?_, ?_⟩
  · exact ((strict_adds_checks.2.2 d checked).2 f hf).trans (by decide +kernel)
  · exact ((strict_adds_checks.2.2 d unchecked).2 g hg).trans (by decide +kernel)

end SpaceLink
