import SpaceLink.Proofs.Tm.Stored
import SpaceLink.Proofs.Aos.Stored
import SpaceLink.Proofs.Tc.Stored

/-!
# What decoders accept

Byte strings are frames of a kind, for the parameters of the channel, exactly if none of the faults
of this kind applies to them. Of those that apply, the first in the order of the list is reported.

The lengths of the parts that the parameters and the bytes call for have to be a word together, and
so does the number of bits of a bitstream. If they are not, a decoder that checks its results stops
when it comes to them. In wrapping arithmetic it may accept bytes that are much too short
(`wrapped_bytes_accepted`).
-/

namespace SpaceLink

/-- The program reports the first of the faults, or it stops where it may. -/
def Program.Reports {α : Type} (p : Program α) (stops : Prop) (faults : List Fault) : Prop :=
  (p.run = none ∧ stops) ∨ ∃ outcome, p.run = some outcome ∧ ReportsFirst outcome faults

/-- A program has the faults of the function that it agrees with. -/
theorem Program.Agrees.reports {α β : Type} {stops : Prop} {R : α → β → Prop} {p : Program α}
    {r : Except Error β} {faults : List Fault} (h : Agrees stops R p r)
    (hr : ReportsFirst r faults) : p.Reports stops faults := by
  cases h with
  | ok _ => exact .inr ⟨_, rfl, .of_ok (firstFault?_eq_none_iff.mpr (hr.accepts.mp ⟨_, rfl⟩))⟩
  | error e => exact .inr ⟨_, rfl, .of_error ((hr.error e).mp rfl)⟩
  | stop h => exact .inl ⟨rfl, h⟩

theorem decode_reports_first_fault (a : Arithmetic) :
    (∀ (d : Bytes) (config : Tm.Config), d.Storable →
      (a = .wrapping → Tm.minimumLength d config < wordSize) →
      (Tm.StoredFrame.decode a d config).Reports (wordSize ≤ Tm.minimumLength d config)
        (Tm.faults d config)) ∧
    (∀ (d : Bytes) (config : Aos.Config), d.Storable →
      (a = .wrapping → config.InWords d.length) →
      (Aos.StoredFrame.decode a d config).Reports (¬config.InWords d.length)
        (Aos.faults d config)) ∧
    ∀ (d : Bytes) (config : Tc.Config), d.Storable →
      (a = .wrapping → Tc.minimumLength d config < wordSize) →
      (Tc.StoredFrame.decode a d config).Reports (wordSize ≤ Tc.minimumLength d config)
        (Tc.faults d config) := by
  refine ⟨fun d config hd hwrapping => ?_, fun d config hd hwrapping => ?_,
    fun d config hd hwrapping => ?_⟩
  · exact (Tm.StoredFrame.decode_agrees a hd hwrapping).reports
      (Tm.Frame.decode_reportsFirst d config)
  · exact (Aos.StoredFrame.decode_agrees a hd hwrapping).reports
      (Aos.Frame.decode_reportsFirst d config)
  · exact (Tc.StoredFrame.decode_agrees a hd hwrapping).reports
      (Tc.Frame.decode_reportsFirst d config)

/-- A frame that is too short for its secondary header is of the wrong version first. -/
example : firstFault? (Tm.faults [0x40, 0, 0, 0, 0x80, 0] {}) = some (.version 0 1) ∧
    firstFault? (Tm.faults [0x00, 0, 0, 0, 0x80, 0] {}) = some (.notEnoughData 6 7) ∧
    firstFault? (Tm.faults [0x00, 0, 0, 0, 0x80, 0, 0x3f] {}) = some (.notEnoughData 7 72) := by
  decide

/-- What is reported is known if the program may not stop. -/
theorem Program.Reports.run_eq_error {α : Type} {p : Program α} {stops : Prop}
    {faults : List Fault} {e : Error} (h : p.Reports stops faults) (hstops : ¬stops)
    (he : firstFault? faults = some e) : p.run = some (.error e) := by
  obtain ⟨-, hs⟩ | ⟨outcome, hrun, hr⟩ := h
  · exact absurd hs hstops
  · rw [hrun, (hr.error e).mpr he]

theorem Program.Reports.exists_run_ok {α : Type} {p : Program α} {stops : Prop}
    {faults : List Fault} (h : p.Reports stops faults) (hstops : ¬stops)
    (hfaults : firstFault? faults = none) : ∃ x, p.run = some (.ok x) := by
  obtain ⟨-, hs⟩ | ⟨outcome, hrun, hr⟩ := h
  · exact absurd hs hstops
  · obtain ⟨x, rfl⟩ := hr.accepts.mpr (firstFault?_eq_none_iff.mp hfaults)
    exact ⟨x, hrun⟩

/-- A TM frame whose secondary header is longer than it, an AOS frame with no place for a pointer, and
a command. -/
theorem decode_reports_first_fault_short :
    (Tm.StoredFrame.decode .wrapping [0, 0, 0, 0, 0x80, 0, 0x3f] {}).run =
      some (.error (.notEnoughData 7 72)) ∧
    (Aos.StoredFrame.decode .checked [0x40, 0, 0, 0, 0, 0, 0, 0, 0] {}).run =
      some (.error (.notEnoughData 9 10)) ∧
    ∃ s, (Tc.StoredFrame.decode .wrapping [0x32, 0xa5, 0xa0, 9, 200, 0x82, 0, 5, 0x3e, 0x40]
      {}).run = some (.ok s) := by
  refine ⟨?_, ?_, ?_⟩
  · exact ((decode_reports_first_fault .wrapping).1 [0, 0, 0, 0, 0x80, 0, 0x3f] {} (by decide)
      (by decide)).run_eq_error (by decide) (by decide)
  · exact ((decode_reports_first_fault .checked).2.1 [0x40, 0, 0, 0, 0, 0, 0, 0, 0] {} (by decide)
      (by decide)).run_eq_error (by decide) (by decide)
  · exact ((decode_reports_first_fault .wrapping).2.2
      [0x32, 0xa5, 0xa0, 9, 200, 0x82, 0, 5, 0x3e, 0x40] {} (by decide)
      (by decide)).exists_run_ok (by decide) (by decide +kernel)

/-- Bytes that are accepted though the security header alone is longer than any byte string. If sums
are checked, the decoder stops. -/
theorem wrapped_bytes_accepted :
    let d : Bytes := [0, 0, 0, 0, 7, 255, 0, 0]
    let config : Tm.Config := { fecfPresent := false, securityHeaderLength := wordSize - 4 }
    firstFault? (Tm.faults d config) = some (.notEnoughData 8 (wordSize + 2)) ∧
    (Tm.StoredFrame.decode .checked d config).run = none ∧
    ∃ s, (Tm.StoredFrame.decode .wrapping d config).run = some (.ok s) ∧ s.isValid = true := by
  intro d config
  refine ⟨by decide +kernel, Option.isNone_iff_eq_none.mp (by decide +kernel), ?_⟩
  exact Program.exists_of_any (by decide +kernel)

end SpaceLink
