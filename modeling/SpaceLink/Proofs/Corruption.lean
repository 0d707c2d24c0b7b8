import SpaceLink.Proofs.Tm.Frame
import SpaceLink.Proofs.Aos.Frame
import SpaceLink.Proofs.Tc.Frame
import SpaceLink.Proofs.Checksum.Crc16
import SpaceLink.Proofs.Checksum.HeaderCheck

/-!
# Frames that were corrupted on the link

A check that detects an error keeps every decoder from passing on what the error left of a frame.
Strictly checked, the frame is refused; otherwise it is reported as not valid (`NeverPasses`). This
is so because the decoders compare the checks of which it is known what they detect: all of them
`fecfValid` (`Frame.Decodes.isValid_eq`), that of AOS frames also `fhecValid?`
(`Frame.Decodes.isHeaderValid_eq`).
-/

namespace SpaceLink

/-- Whatever is read, strictly or not, is not said to pass the check. -/
def NeverPasses {F : Type} (decode : (strict : Bool) → Except Error F) (passes : F → Bool) : Prop :=
  (∀ f, decode false = .ok f → passes f = false) ∧ ∀ f, decode true ≠ .ok f

/-- What does not pass and, checked strictly, has to pass, is refused if checked strictly. -/
theorem NeverPasses.of_strict {F : Type} {decode : Bool → Except Error F} {passes : F → Bool}
    (h : ∀ strict f, decode strict = .ok f → passes f = false ∧ (strict = true → passes f = true)) :
    NeverPasses decode passes := by
  refine ⟨fun f hf => (h false f hf).1, fun f hf => ?_⟩
  obtain ⟨hfails, hpasses⟩ := h true f hf
  exact Bool.noConfusion (hfails.symm.trans (hpasses rfl))

section

variable {d : Bytes}

theorem Tm.Frame.Decodes.isValid_eq {f : Tm.Frame} {config : Tm.Config} (h : f.Decodes d config)
    (hp : config.fecfPresent = true) : f.isValid = fecfValid d := by
  obtain ⟨secondary, -, hoverhead⟩ := h.overhead
  rw [← h.bytes]
  refine FrameBytes.isValid_eq_fecfValid ?_
  rw [hoverhead]
  exact hp

theorem Aos.Frame.Decodes.isValid_eq {f : Aos.Frame} {config : Aos.Config} (h : f.Decodes d config)
    (hp : config.fecfPresent = true) : f.isValid = fecfValid d := by
  rw [← h.bytes]
  refine FrameBytes.isValid_eq_fecfValid ?_
  rw [h.overhead]
  exact hp

theorem Tc.Frame.Decodes.isValid_eq {f : Tc.Frame} {config : Tc.Config} (h : f.Decodes d config)
    (hp : config.fecfPresent = true) : f.isValid = fecfValid d := by
  rw [← h.bytes]
  refine FrameBytes.isValid_eq_fecfValid ?_
  rw [h.overhead, config.fecfPresent_overheadIn]
  exact hp

end

/-! ## The check of the frame -/

/-- A burst as long as the check and any odd number of errors are detected, wherever in the frame
they are, so that no decoder passes the frame on. -/
theorem fecf_detects {d d' : Bytes} (hlen : d'.length = d.length)
    (herrors : Detectable (differences d.toBits d'.toBits)) :
    (fecfValid d = true → fecfValid d' = false) ∧
    (∀ (config : Tm.Config) (f : Tm.Frame), config.fecfPresent = true →
      Tm.Frame.decode d config = .ok f → f.isValid = true →
      NeverPasses (fun strict => Tm.Frame.decode d' { config with strict }) (·.isValid)) ∧
    (∀ (config : Aos.Config) (f : Aos.Frame), config.fecfPresent = true →
      Aos.Frame.decode d config = .ok f → f.isValid = true →
      NeverPasses (fun strict => Aos.Frame.decode d' { config with strict }) (·.isValid)) ∧
    (∀ (config : Tc.Config) (f : Tc.Frame), config.fecfPresent = true →
      Tc.Frame.decode d config = .ok f → f.isValid = true →
      NeverPasses (fun strict => Tc.Frame.decode d' { config with strict }) (·.isValid)) := by
  have hdetects : fecfValid d = true → fecfValid d' = false := fecfValid_of_detectable hlen herrors
  refine ⟨hdetects, fun config f hp hf hv => ?_, fun config f hp hf hv => ?_,
    fun config f hp hf hv => ?_⟩
  · rw [(Tm.Frame.decode_eq_ok_iff.mp hf).isValid_eq hp] at hv
    refine .of_strict fun strict f' hf' => ?_
    have hf' := Tm.Frame.decode_eq_ok_iff.mp hf'
    exact ⟨(hf'.isValid_eq hp).trans (hdetects hv), hf'.valid⟩
  · rw [(Aos.Frame.decode_eq_ok_iff.mp hf).isValid_eq hp] at hv
    refine .of_strict fun strict f' hf' => ?_
    have hf' := Aos.Frame.decode_eq_ok_iff.mp hf'
    exact ⟨(hf'.isValid_eq hp).trans (hdetects hv), hf'.valid⟩
  · rw [(Tc.Frame.decode_eq_ok_iff.mp hf).isValid_eq hp] at hv
    refine .of_strict fun strict f' hf' => ?_
    have hf' := Tc.Frame.decode_eq_ok_iff.mp hf'
    exact ⟨(hf'.isValid_eq hp).trans (hdetects hv), hf'.valid⟩

/-- A burst of 16 bits that begins in the data and ends in the check of bytes that are both a TM
frame and a TC frame, and three errors far apart in an AOS frame. -/
theorem fecf_detects_burst_of_sixteen :
    let d : Bytes := [0x20, 0x0a, 0x04, 0x0a, 0x00, 0x01, 7, 8, 9, 0x82, 0x92]
    let d' : Bytes := [0x20, 0x0a, 0x04, 0x0a, 0x00, 0x01, 7, 8, 1, 0x82, 0x82]
    let e : Bytes := [0x4a, 0x45, 1, 2, 3, 0x40, 0x07, 0xff, 5, 0x73, 0xf8]
    let e' : Bytes := [0x4b, 0x45, 1, 2, 2, 0x40, 0x07, 0xff, 5, 0x73, 0x78]
    ((∃ f, Tm.Frame.decode d {} = .ok f ∧ f.isValid = true) ∧
        NeverPasses (fun strict => Tm.Frame.decode d' { strict }) (·.isValid)) ∧
      ((∃ f, Tc.Frame.decode d {} = .ok f ∧ f.isValid = true) ∧
        NeverPasses (fun strict => Tc.Frame.decode d' { strict }) (·.isValid)) ∧
      (∃ f, Aos.Frame.decode e {} = .ok f ∧ f.isValid = true) ∧
        NeverPasses (fun strict => Aos.Frame.decode e' { strict }) (·.isValid) := by
  intro d d' e e'
  obtain ⟨-, htm, -, htc⟩ := fecf_detects (show d'.length = d.length from rfl) (by decide +kernel)
  obtain ⟨-, -, haos, -⟩ := fecf_detects (show e'.length = e.length from rfl) (by decide +kernel)
  obtain ⟨tm, htm', hvtm⟩ := exists_of_any (x := Tm.Frame.decode d {}) (p := (·.isValid))
    (by decide +kernel)
  obtain ⟨tc, htc', hvtc⟩ := exists_of_any (x := Tc.Frame.decode d {}) (p := (·.isValid))
    (by decide +kernel)
  obtain ⟨aos, haos', hvaos⟩ := exists_of_any (x := Aos.Frame.decode e {}) (p := (·.isValid))
    (by decide +kernel)
  exact ⟨⟨⟨tm, htm', hvtm⟩, htm {} tm rfl htm' hvtm⟩, ⟨⟨tc, htc', hvtc⟩, htc {} tc rfl htc' hvtc⟩,
    ⟨aos, haos', hvaos⟩, haos {} aos rfl haos' hvaos⟩

/-! ## The check of the header -/

theorem Aos.Frame.Decodes.isHeaderValid_eq {f : Aos.Frame} {d : Bytes} {config : Aos.Config}
    (h : f.Decodes d config) (hp : config.fhecPresent = true) :
    f.isHeaderValid = fhecValid (d.take headerLength) (Bytes.slice headerLength fhecLength d) := by
  rw [isHeaderValid, h.fhecPresent, hp, h.bytes]
  rfl

/-- A frame whose header has a check is long enough for both. -/
theorem Aos.Frame.Decodes.fhec_le_length {f : Aos.Frame} {d : Bytes} {config : Aos.Config}
    (h : f.Decodes d config) (hp : config.fhecPresent = true) :
    headerLength + fhecLength ≤ d.length := by
  have hfits := f.fits
  rw [h.bytes, h.overhead, Overhead.total, Overhead.leading, Config.overhead] at hfits
  simp only [hp, if_true] at hfits
  omega

/-- One to four errors in the ten symbols of a header and its check are detected, so that no decoder
passes the header on; the checks of any two headers differ accordingly. -/
theorem fhec_detects {h : Bytes} (hlen : 6 ≤ h.length) :
    ∃ check, fhec? h = some check ∧ check.length = fhecLength ∧
      (∀ h' check', 6 ≤ h'.length → check'.length = fhecLength →
        distance (headerSymbols h check) (headerSymbols h' check') ∈ Set.Icc 1 4 →
        fhecValid? h' check' = some false) ∧
      (∀ h', 6 ≤ h'.length → ∃ check', fhec? h' = some check' ∧
        (h'[0]? = h[0]? → h'[1]? = h[1]? → h'[5]? = h[5]? → check' = check) ∧
        (1 ≤ distance (protectedSymbols h) (protectedSymbols h') →
          5 - distance (protectedSymbols h) (protectedSymbols h') ≤
            distance (check.flatMap Nibble.ofByte) (check'.flatMap Nibble.ofByte))) ∧
      ∀ (d : Bytes) (config : Aos.Config), config.fhecPresent = true →
        distance (headerSymbols h check) (headerSymbols (d.take Aos.headerLength)
          (Bytes.slice Aos.headerLength fhecLength d)) ∈ Set.Icc 1 4 →
        NeverPasses (fun strict => Aos.Frame.decode d { config with strict })
          (·.isHeaderValid) := by
  obtain ⟨check, hcheck⟩ : ∃ check, fhec? h = some check := ⟨_, fhec?_eq hlen⟩
  refine ⟨check, hcheck, length_of_fhec? hlen hcheck, fun h' check' hlen' hl => ?_,
    fun h' hlen' => ?_, fun d config hp herrors => ?_⟩
  · exact fhecValid?_of_distance hlen hlen' hcheck hl
  · obtain ⟨check', hcheck'⟩ : ∃ check', fhec? h' = some check' := ⟨_, fhec?_eq hlen'⟩
    refine ⟨check', hcheck', fun h0 h1 h5 => ?_, fun hone => ?_⟩
    · have hsame : protectedSymbols h' = protectedSymbols h := by
        simp only [protectedSymbols, List.getD_eq_getElem?_getD, h0, h1, h5]
      rw [fhec?_eq hlen', hsame, ← fhec?_eq hlen, hcheck] at hcheck'
      exact (Option.some.inj hcheck').symm
    · -- what the headers lack to the distance of five, their checks must have
      have hsum := distance_append (s := protectedSymbols h) (t := protectedSymbols h') rfl
        (check.flatMap Nibble.ofByte) (check'.flatMap Nibble.ofByte)
      have hfive := five_le_distance_headerSymbols hlen hlen' hcheck hcheck'
      rw [headerSymbols, headerSymbols, hsum] at hfive
      omega
  · refine .of_strict fun strict f hf => ?_
    have hf := Aos.Frame.decode_eq_ok_iff.mp hf
    have hle := hf.fhec_le_length hp
    have hvalid := hf.isHeaderValid_eq hp
    have hheader : 6 ≤ (d.take Aos.headerLength).length := by
      rw [List.length_take]
      exact Nat.le_min.mpr ⟨Nat.le_refl _, Nat.le_of_add_right_le hle⟩
    have hl : (Bytes.slice Aos.headerLength fhecLength d).length = fhecLength := by
      rw [Bytes.length_slice]
      exact Nat.min_eq_left (Nat.le_sub_of_add_le' hle)
    rw [fhecValid, fhecValid?_of_distance hlen hheader hcheck hl herrors] at hvalid
    refine ⟨hvalid, fun hs => ?_⟩
    rw [Aos.Frame.isHeaderValid, hf.fhecPresent, hf.bytes]
    exact hf.headerValid hs

/-- A frame with errors in four symbols, one of them of the check. Unless it is checked strictly, it
is read. -/
theorem fhec_detects_four_symbols :
    let h : Bytes := [0x4a, 0x45, 1, 2, 3, 0xc9]
    let check : Bytes := [0x41, 0x73]
    let d : Bytes := [0x4b, 0x54, 1, 2, 3, 0xc9, 0x42, 0x73, 1, 2]
    let config : Aos.Config := { fhecPresent := true, fecfPresent := false, userDataType := .vca }
    fhec? h = some check ∧ fhecValid? (d.take 6) [0x42, 0x73] = some false ∧
      (∃ f, Aos.Frame.decode d config = .ok f) ∧
      NeverPasses (fun strict => Aos.Frame.decode d { config with strict }) (·.isHeaderValid) := by
  intro h check d config
  obtain ⟨own, hown, -, hdetects, -, hframes⟩ := fhec_detects (h := h) (by decide)
  obtain rfl : own = check := Option.some.inj (hown.symm.trans (by decide +kernel))
  exact ⟨hown, hdetects (d.take 6) [0x42, 0x73] (by decide) rfl (by decide +kernel),
    exists_eq_ok_of_isOk (by decide +kernel), hframes d config rfl (by decide +kernel)⟩

end SpaceLink
