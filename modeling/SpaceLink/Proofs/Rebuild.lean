import SpaceLink.Proofs.Tiling
import SpaceLink.Proofs.Tm.Rebuild
import SpaceLink.Proofs.Aos.Rebuild
import SpaceLink.Proofs.Tc.Rebuild

/-!
# Building a frame again

What decoding reads from a valid frame is all that a builder needs to make the same bytes again. The
exceptions are bits that no field has, a secondary header of TM frames whose first byte no builder
writes, and the type of TC frames that the protocol does not use.

A frame that is decoded though the lengths of its parts together are no word is not built again: its
parts cannot be asked for, and the builder wants them (`wrapped_frame_not_built`).
-/

namespace SpaceLink

/-- The builder of the length and parameters of a valid frame accepts all that the frame says of
itself, in any order and however often, and then builds the frame that was decoded. -/
theorem frame_of_setters (a : Arithmetic) :
    (∀ (d : Bytes) (config : Tm.Config) (s : Tm.StoredFrame), d.Storable →
      (a = .wrapping → Tm.minimumLength d config < wordSize) →
      (Tm.StoredFrame.decode a d config).run = some (.ok s) → s.isValid = true →
      s.bytes = d ∧ ∃ f, Tm.Frame.decode d config = .ok f ∧ s = f.stored ∧ f.Tiles a d config ∧
        (f.PlainSecondaryHeader →
          ∃ m, (Tm.StagedBuilder.create a d.length (f.secondaryHeaderData?.getD []).length
              f.header.ocfPresent config).run = some (.ok m) ∧
            ∀ steps, (∀ step, step ∈ steps ↔ step ∈ f.setters) →
              (Tm.StagedBuilder.machine a).Builds m steps s)) ∧
    (∀ (d : Bytes) (config : Aos.Config) (s : Aos.StoredFrame), d.Storable →
      config.InWords d.length →
      (Aos.StoredFrame.decode a d config).run = some (.ok s) → s.isValid = true →
      s.details.isHeaderValid = true →
      s.bytes = d ∧ ∃ f, Aos.Frame.decode d config = .ok f ∧ s = f.stored ∧ f.Tiles a d config ∧
        (f.SpareBitsZero →
          ∃ m, (Aos.StagedBuilder.create a d.length config).run = some (.ok m) ∧
            ∀ steps, (∀ step, step ∈ steps ↔ step ∈ f.setters) →
              (Aos.StagedBuilder.machine a).Builds m steps s)) ∧
    ∀ (d : Bytes) (config : Tc.Config) (s : Tc.StoredFrame), d.Storable →
      (a = .wrapping → Tc.minimumLength d config < wordSize) →
      (Tc.StoredFrame.decode a d config).run = some (.ok s) → s.isValid = true →
      s.bytes = d ∧ ∃ f, Tc.Frame.decode d config = .ok f ∧ s = f.stored ∧ f.Tiles a d config ∧
        (f.SpareBitsZero → f.frameType ≠ .reserved →
          ∃ m, (Tc.StagedBuilder.like a f config).run = some (.ok m) ∧
            ∀ steps, f.RetoldBy steps → (Tc.StagedBuilder.machine a).Builds m steps s) := by
  refine ⟨fun d config s hd hwrapping hs hv => ?_, fun d config s hd hwords hs hv hheader => ?_,
    fun d config s hd hwrapping hs hv => ?_⟩
  · obtain ⟨f, hf, rfl⟩ := (Tm.StoredFrame.decode_agrees a hd hwrapping).exists_of_run_ok hs
    have hdecodes := Tm.Frame.decode_eq_ok_iff.mp hf
    exact ⟨hdecodes.bytes, f, hf, rfl, hdecodes.tiles a hd, Tm.StagedBuilder.rebuild a hf hd hv⟩
  · obtain ⟨f, hf, rfl⟩ := (Aos.StoredFrame.decode_agrees a hd fun _ => hwords).exists_of_run_ok hs
    have hdecodes := Aos.Frame.decode_eq_ok_iff.mp hf
    exact ⟨hdecodes.bytes, f, hf, rfl, hdecodes.tiles a hd,
      Aos.StagedBuilder.rebuild a hf hd hwords hv hheader⟩
  · obtain ⟨f, hf, rfl⟩ := (Tc.StoredFrame.decode_agrees a hd hwrapping).exists_of_run_ok hs
    have hdecodes := Tc.Frame.decode_eq_ok_iff.mp hf
    exact ⟨hdecodes.bytes, f, hf, rfl, hdecodes.tiles a hd, Tc.StagedBuilder.rebuild a hf hv⟩

/-- A frame of each kind with all of its parts, and a command. -/
theorem frame_of_setters_full :
    let tm : Bytes := [0x2a, 0x5b, 7, 255, 0x98, 1, 2, 0xaa, 0xbb, 0x77, 1, 2, 3, 0x55, 0x66, 9, 8,
      7, 6, 0x7f, 0xe3]
    let tmConfig : Tm.Config := { securityHeaderLength := 1, securityTrailerLength := 2 }
    let aos : Bytes := [0x4a, 0x45, 1, 2, 3, 0xc9, 0x41, 0x73, 10, 11, 0x77, 7, 255, 1, 2, 3, 0x55,
      9, 8, 7, 6, 0xbc, 0x24]
    let aosConfig : Aos.Config := {
      fhecPresent := true, insertZoneLength := 2, ocfPresent := true, securityHeaderLength := 1
      securityTrailerLength := 1 }
    let segment : Bytes := [0x22, 0xa5, 0xa0, 13, 200, 0x45, 0x77, 1, 2, 3, 0x55, 0x66, 0x1a, 0x39]
    let command : Bytes := [0x32, 0xa5, 0xa0, 9, 200, 0x82, 0, 5, 0x3e, 0x40]
    let tcConfig : Tc.Config := {
      segmented := true, securityHeaderLength := 1, securityTrailerLength := 2 }
    (∃ s, ∃ f : Tm.Frame, ∃ m, (Tm.StoredFrame.decode .wrapping tm tmConfig).run = some (.ok s) ∧
      s = f.stored ∧
      (Tm.StagedBuilder.create .wrapping 21 2 true tmConfig).run = some (.ok m) ∧
      (Tm.StagedBuilder.machine .wrapping).Builds m f.setters s) ∧
    (∃ s, ∃ f : Aos.Frame, ∃ m, (Aos.StoredFrame.decode .wrapping aos aosConfig).run = some (.ok s) ∧
      s = f.stored ∧
      (Aos.StagedBuilder.create .wrapping 23 aosConfig).run = some (.ok m) ∧
      (Aos.StagedBuilder.machine .wrapping).Builds m f.setters s) ∧
    (∃ s, ∃ f : Tc.Frame, ∃ m, (Tc.StoredFrame.decode .checked segment tcConfig).run = some (.ok s) ∧
      s = f.stored ∧
      (Tc.StagedBuilder.create .checked 14 tcConfig).run = some (.ok m) ∧
      (Tc.StagedBuilder.machine .checked).Builds m (.addData [1, 2, 3] :: f.setters) s) ∧
    (∃ s, ∃ f : Tc.Frame, ∃ m, (Tc.StoredFrame.decode .checked command tcConfig).run = some (.ok s) ∧
      s = f.stored ∧
      (Tc.StagedBuilder.ofCommand .checked (.setVr 5) true).run = some (.ok m) ∧
      (Tc.StagedBuilder.machine .checked).Builds m f.setters s) := by
  intro tm tmConfig aos aosConfig segment command tcConfig
  obtain ⟨tmBuilds, aosBuilds, -⟩ := frame_of_setters .wrapping
  obtain ⟨-, -, tcBuilds⟩ := frame_of_setters .checked
  refine ⟨?_, ?_, ?_, ?_⟩
  · obtain ⟨s, hs, hv⟩ : ∃ s, (Tm.StoredFrame.decode .wrapping tm tmConfig).run = some (.ok s) ∧
        s.isValid = true := Program.exists_of_any (by decide +kernel)
    obtain ⟨-, f, hf, hstored, -, h⟩ := tmBuilds tm tmConfig s (by decide) (by decide) hs hv
    obtain ⟨f', hf', hp⟩ := exists_of_any (x := Tm.Frame.decode tm tmConfig)
      (p := fun f => decide f.PlainSecondaryHeader &&
        decide (f.secondaryHeaderData? = some [0xaa, 0xbb]) && f.header.ocfPresent)
      (by decide +kernel)
    cases hf.symm.trans hf'
    simp only [Bool.and_eq_true, decide_eq_true_eq] at hp
    obtain ⟨⟨hplain, hdata⟩, hocf⟩ := hp
    obtain ⟨m, hm, hbuilds⟩ := h hplain
    rw [hdata, hocf] at hm
    exact ⟨s, f, m, hs, hstored, hm, hbuilds f.setters fun _ => .rfl⟩
  · obtain ⟨s, hs, hp⟩ : ∃ s, (Aos.StoredFrame.decode .wrapping aos aosConfig).run = some (.ok s) ∧
        (s.isValid && s.details.isHeaderValid) = true := Program.exists_of_any (by decide +kernel)
    obtain ⟨hv, hheader⟩ := Bool.and_eq_true_iff.mp hp
    obtain ⟨-, f, hf, hstored, -, h⟩ :=
      aosBuilds aos aosConfig s (by decide) (by decide) hs hv hheader
    obtain ⟨f', hf', hspare⟩ := exists_of_any (x := Aos.Frame.decode aos aosConfig)
      (p := fun f => decide f.SpareBitsZero) (by decide +kernel)
    cases hf.symm.trans hf'
    obtain ⟨m, hm, hbuilds⟩ := h (of_decide_eq_true hspare)
    exact ⟨s, f, m, hs, hstored, hm, hbuilds f.setters fun _ => .rfl⟩
  · obtain ⟨s, hs, hv⟩ : ∃ s, (Tc.StoredFrame.decode .checked segment tcConfig).run = some (.ok s) ∧
        s.isValid = true := Program.exists_of_any (by decide +kernel)
    obtain ⟨hbytes, f, hf, hstored, -, h⟩ :=
      tcBuilds segment tcConfig s (by decide) (by decide) hs hv
    obtain ⟨f', hf', hp⟩ := exists_of_any (x := Tc.Frame.decode segment tcConfig)
      (p := fun f => decide f.SpareBitsZero && decide (f.frameType ≠ .reserved) &&
        decide (f.controlCommand? = none) && decide (f.dataField = [1, 2, 3]))
      (by decide +kernel)
    cases hf.symm.trans hf'
    simp only [Bool.and_eq_true, decide_eq_true_eq] at hp
    obtain ⟨⟨⟨hspare, htype⟩, hcommand⟩, hdata⟩ := hp
    obtain ⟨m, hm, hbuilds⟩ := h hspare htype
    rw [hstored] at hbytes
    rw [Tc.StagedBuilder.like, hcommand, show f.bytes = segment from hbytes] at hm
    refine ⟨s, f, m, hs, hstored, hm, hbuilds _ ⟨fun _ => List.mem_cons_of_mem _, .inr ?_,
      fun step hstep => ?_⟩⟩
    · rw [hdata]
      exact List.mem_cons_self
    · rw [hdata]
      exact (List.mem_cons.mp hstep).symm
  · obtain ⟨s, hs, hv⟩ : ∃ s, (Tc.StoredFrame.decode .checked command tcConfig).run = some (.ok s) ∧
        s.isValid = true := Program.exists_of_any (by decide +kernel)
    obtain ⟨-, f, hf, hstored, -, h⟩ := tcBuilds command tcConfig s (by decide) (by decide) hs hv
    obtain ⟨f', hf', hp⟩ := exists_of_any (x := Tc.Frame.decode command tcConfig)
      (p := fun f => decide f.SpareBitsZero && decide (f.frameType = .bc) &&
        decide (f.controlCommand? = some (.setVr 5)))
      (by decide +kernel)
    cases hf.symm.trans hf'
    simp only [Bool.and_eq_true, decide_eq_true_eq] at hp
    obtain ⟨⟨hspare, htype⟩, hcommand⟩ := hp
    obtain ⟨m, hm, hbuilds⟩ := h hspare (by simp [htype])
    rw [Tc.StagedBuilder.like, hcommand] at hm
    exact ⟨s, f, m, hs, hstored, hm, hbuilds f.setters ⟨fun _ => id, .inl htype, fun _ => .inl⟩⟩

/-- A frame that decodes and is valid though the lengths of its parts together are no word. Its security
header cannot be asked for, and the builder of its length and parameters takes none. -/
theorem wrapped_frame_not_built :
    let d : Bytes := [0, 0, 0, 0, 7, 255, 0, 0]
    let config : Tm.Config := { fecfPresent := false, securityHeaderLength := wordSize - 4 }
    ∃ s m, (Tm.StoredFrame.decode .wrapping d config).run = some (.ok s) ∧ s.isValid = true ∧
      (Tm.StagedBuilder.create .wrapping 8 0 false config).run = some (.ok m) ∧
      s.zones.securityHeader s.bytes = none ∧
      ∀ part : Bytes, part.length ≤ maxBytes →
        (Tm.StagedBuilder.perform .wrapping (.securityHeader part)).on m =
          some (.error (.fieldLength .securityHeader (wordSize - 4) part.length), m) := by
  intro d config
  obtain ⟨s, hs, htest⟩ : ∃ s, (Tm.StoredFrame.decode .wrapping d config).run = some (.ok s) ∧
      decide (s.isValid = true ∧ s.zones.securityHeader s.bytes = none) = true :=
    Program.exists_of_any (by decide +kernel)
  obtain ⟨hv, hnone⟩ := of_decide_eq_true htest
  obtain ⟨m, hm, hexpected⟩ : ∃ m, (Tm.StagedBuilder.create .wrapping 8 0 false config).run =
      some (.ok m) ∧ decide (Arithmetic.wrapping.sub m.staging.zones.dataFieldStart
        m.staging.zones.securityHeaderStart = some (wordSize - 4)) = true :=
    Program.exists_of_any (by decide +kernel)
  refine ⟨s, m, hs, hv, hm, hnone, fun part hpart => ?_⟩
  have hshort : wordSize - 4 ≠ part.length := by
    rw [maxBytes] at hpart
    rw [wordSize]
    omega
  have hset : (Staging.setSecurityHeader .wrapping part).on m.staging =
      some (.error (.fieldLength .securityHeader (wordSize - 4) part.length), m.staging) := by
    rw [Staging.setSecurityHeader, Change.on_get_bind, of_decide_eq_true hexpected,
      Change.on_some_bind, checkLength, if_neg hshort]
    rfl
  refine (Change.on_within _ _ _ (fun _ => none) m).trans ?_
  rw [hset]
  rfl

end SpaceLink
