import Mathlib.Data.List.Basic
import SpaceLink.Proofs.Tm.Staged

/-!
# Building a TM frame again

A frame has a setter for each field of its header and each of its parts (`Frame.setters`). A builder
of the same length and parameters takes them all, in any order, and builds the frame they were taken
from (`Builder.rebuild`), unless its secondary header has a first byte that no builder writes. So does
the builder in memory (`StagedBuilder.rebuild`).
-/

namespace SpaceLink.Tm

/-- The first byte of the secondary header, if there is one, has version 0, and there is data behind
it. -/
def Frame.PlainSecondaryHeader (f : Frame) : Prop :=
  ∀ id ∈ f.secondaryHeader?.bind (·.head?), bits id.toNat 6 2 = 0 ∧ bits id.toNat 0 6 ≠ 0

instance (f : Frame) : Decidable f.PlainSecondaryHeader :=
  inferInstanceAs (Decidable (∀ id ∈ f.secondaryHeader?.bind (·.head?), _))

/-- The steps that say what a frame has. -/
def Frame.setters (f : Frame) : List Builder.Step :=
  [.scid f.header.scid, .vcid f.header.vcid, .mcFrameCount f.header.mcFrameCount,
    .vcFrameCount f.header.vcFrameCount, .sync f.header.sync, .packetOrder f.header.packetOrder,
    .segmentLengthId f.header.segmentLengthId,
    .firstHeaderPointer f.header.firstHeaderPointer, .addData f.dataField] ++
  f.secondaryHeaderData?.toList.map .secondaryHeader ++ f.ocf?.toList.map .ocf ++
  f.securityHeader.present?.toList.map .securityHeader ++
  f.securityTrailer.present?.toList.map .securityTrailer

namespace Builder

/-- What a builder for frames like this one is created for. -/
def Plan.of (f : Frame) (config : Config) : Plan where
  secondaryHeaderLength := (f.secondaryHeaderData?.getD []).length
  ocfPresent := f.header.ocfPresent
  config

/-- What a builder demands of a step. -/
def Step.Fits (plan : Plan) : Step → Prop
  | .scid n => n ≤ maxScid
  | .vcid n => n ≤ maxVcid
  | .segmentLengthId n => n ≤ 3
  | .firstHeaderPointer n => n ≤ noPacketPointer
  | .secondaryHeader d =>
    plan.secondaryHeaderPresent = true ∧ d.length = plan.secondaryHeaderLength
  | .ocf d => plan.ocfPresent = true ∧ d.length = ocfLength
  | .securityHeader d => d.length = plan.config.securityHeaderLength
  | .securityTrailer d => d.length = plan.config.securityTrailerLength
  | .mcFrameCount _ | .vcFrameCount _ | .sync _ | .packetOrder _ | .idle | .addData _ => True

section

variable {b : Builder} {plan : Plan} {room : Nat} {t : Told}

/-- A step that fits is accepted. -/
theorem Obeys.exists_apply (h : b.Obeys plan room t) {s : Step} (hs : s.Fits plan) :
    ∃ b', b.apply s = .ok b' := by
  cases s with
  | scid n | vcid n | segmentLengthId n | firstHeaderPointer n =>
    exact ⟨_, bind_eq_ok_iff.mpr ⟨(), checkRange_eq_ok_iff.mpr hs, rfl⟩⟩
  | secondaryHeader d =>
    obtain ⟨p?, hp⟩ := h.secondaryHeader.exists_set .secondaryHeader hs.1 hs.2
    exact ⟨_, bind_eq_ok_iff.mpr ⟨p?, hp, rfl⟩⟩
  | ocf d =>
    obtain ⟨draft, hd⟩ := h.draft.exists_setOcf hs.1 hs.2
    exact ⟨_, bind_eq_ok_iff.mpr ⟨draft, hd, rfl⟩⟩
  | securityHeader d =>
    obtain ⟨draft, hd⟩ := h.draft.exists_setSecurityHeader hs
    exact ⟨_, bind_eq_ok_iff.mpr ⟨draft, hd, rfl⟩⟩
  | securityTrailer d =>
    obtain ⟨draft, hd⟩ := h.draft.exists_setSecurityTrailer hs
    exact ⟨_, bind_eq_ok_iff.mpr ⟨draft, hd, rfl⟩⟩
  | mcFrameCount _ | vcFrameCount _ | sync _ | packetOrder _ | idle | addData _ => exact ⟨_, rfl⟩

theorem Obeys.accepted_eq (h : b.Obeys plan room t) {steps : List Step}
    (hs : ∀ s ∈ steps, s.Fits plan) : accepted Builder.apply b steps = steps := by
  refine accepted_eq_self Builder.apply (p := fun b => ∃ t, b.Obeys plan room t) ⟨t, h⟩ ?_
  rintro b ⟨t, h⟩ s hmem
  obtain ⟨b', hb⟩ := h.exists_apply (hs s hmem)
  exact ⟨b', hb, _, h.apply hb⟩

end

section

variable {f : Frame} {d : Bytes} {config : Config} {steps : List Step}

/-- Where the secondary header of a frame is plain, it is as a builder writes it, and the frame has
the overhead that its builder plans. -/
theorem Plan.of_spec (hd : f.Decodes d config) (hplain : f.PlainSecondaryHeader) :
    (Plan.of f config).secondaryHeaderPresent = f.header.secondaryHeaderPresent ∧
      f.secondaryHeaderData?.isSome = f.header.secondaryHeaderPresent ∧
      (Plan.of f config).secondaryHeaderLength ≤ maxSecondaryHeader ∧
      (Plan.of f config).overhead = f.overhead ∧
      f.header.encode ++ secondaryBytes f.secondaryHeaderData? = f.headers := by
  rcases hd.headers_cases with ⟨hpresent, hnone, hheaders, hoverhead⟩ |
      ⟨hpresent, id, data, hsecondary, hheaders, hlength, hoverhead⟩
  · have hdata : f.secondaryHeaderData? = none := by
      rw [Frame.secondaryHeaderData?, hnone]
      rfl
    rw [hpresent, hdata, hheaders, hoverhead, of, hdata]
    exact ⟨rfl, rfl, Nat.zero_le _, rfl, List.append_nil _⟩
  · have hdata : f.secondaryHeaderData? = some data := by
      rw [Frame.secondaryHeaderData?, hsecondary]
      rfl
    obtain ⟨hversion, hpos⟩ := hplain id (hsecondary ▸ rfl)
    have hmax : data.length ≤ maxSecondaryHeader := by
      have := bits_lt id.toNat 0 6
      rw [hlength]
      exact Nat.le_of_lt_succ this
    have hid : data.length.toUInt8 = id := by
      have := id.toNat_lt
      rw [bits_eq] at hversion
      rw [← UInt8.toNat_inj, toNat_toUInt8, hlength, bits_eq]
      omega
    have hplanned : (of f config).secondaryHeaderPresent = true := by
      rw [secondaryHeaderPresent, of, hdata]
      exact decide_eq_true (Nat.pos_of_ne_zero (hlength ▸ hpos))
    rw [overhead, secondary, hplanned, of, hdata, hpresent, hheaders, hoverhead, secondaryBytes,
      toUInt8_pack_length hmax, hid]
    exact ⟨rfl, rfl, hmax, rfl, rfl⟩

theorem fits_of_mem_setters (hd : f.Decodes d config) (hplain : f.PlainSecondaryHeader) {s : Step}
    (hs : s ∈ f.setters) : s.Fits (Plan.of f config) := by
  obtain ⟨hpresent, hdata, -, hoverhead, -⟩ := Plan.of_spec hd hplain
  have hfits := Header.fits_of_decode hd.header
  simp only [Frame.setters, List.mem_append, List.mem_cons, List.not_mem_nil, or_false,
    List.mem_map, Option.mem_toList] at hs
  rcases hs with ((((rfl | rfl | rfl | rfl | rfl | rfl | rfl | rfl | rfl) | ⟨e, he, rfl⟩) |
    ⟨e, he, rfl⟩) | ⟨e, he, rfl⟩) | ⟨e, he, rfl⟩
  · exact hfits.scid
  · exact hfits.vcid
  · trivial
  · trivial
  · trivial
  · trivial
  · exact hfits.segmentLengthId
  · exact hfits.firstHeaderPointer
  · trivial
  · rw [he] at hdata
    refine ⟨hpresent.trans hdata.symm, ?_⟩
    rw [Plan.of, he]
    rfl
  · obtain ⟨hp, hlength⟩ := FrameBytes.length_of_mem_ocf? he
    rw [← hoverhead] at hp
    exact ⟨hp, hlength⟩
  · rw [Bytes.eq_of_mem_present? he]
    exact f.length_securityHeader.trans (hoverhead ▸ rfl)
  · rw [Bytes.eq_of_mem_present? he]
    exact f.length_securityTrailer.trans (hoverhead ▸ rfl)

theorem data_of_mem_setters {s : Step} (hs : s ∈ f.setters) :
    s.data = f.dataField ∨ s.data = [] := by
  cases s with
  | addData e =>
    have he : e = f.dataField := by simpa [Frame.setters] using hs
    exact .inl he
  | _ => exact .inr rfl

/-- What the setters say is the frame. -/
theorem told_setters (hd : f.Decodes d config) (hplain : f.PlainSecondaryHeader)
    (h : ∀ s, s ∈ steps ↔ s ∈ f.setters) :
    told (Plan.of f config) steps = {
      header := f.header, secondaryHeader? := f.secondaryHeaderData?
      request := {
        securityHeader? := f.securityHeader.present?
        securityTrailer? := f.securityTrailer.present?
        ocf? := f.ocf?
        userData := steps.flatMap Step.data } } := by
  have key {α : Type} {value? : Step → Option α} (a? : Option α)
      (ha : f.setters.filterMap value? = a?.toList) : last? value? steps = a? :=
    last?_of_setters (fun s hs => (h s).mpr hs) (fun s hs => .inl ((h s).mp hs)) ha
  obtain ⟨hpresent, -⟩ := Plan.of_spec hd hplain
  rw [told, ← hd.version_eq, hpresent]
  rw [key (some f.header.scid) (by simp [Frame.setters]),
    key (some f.header.vcid) (by simp [Frame.setters]),
    key (some f.header.mcFrameCount) (by simp [Frame.setters]),
    key (some f.header.vcFrameCount) (by simp [Frame.setters]),
    key (some f.header.sync) (by simp [Frame.setters]),
    key (some f.header.packetOrder) (by simp [Frame.setters]),
    key (some f.header.segmentLengthId) (by simp [Frame.setters]),
    key (some f.header.firstHeaderPointer)
      (by simp [Frame.setters, List.filterMap_cons, Step.pointer?, Function.comp_def]),
    key f.secondaryHeaderData? (by simp [Frame.setters]),
    key f.securityHeader.present? (by simp [Frame.setters]),
    key f.securityTrailer.present? (by simp [Frame.setters]),
    key f.ocf? (by simp [Frame.setters])]
  rfl

end

/-- There is a builder for every length that the parts leave enough of. -/
theorem exists_create {length : Nat} {plan : Plan}
    (hmax : plan.secondaryHeaderLength ≤ maxSecondaryHeader) (h : plan.overhead.total ≤ length) :
    ∃ b, create length plan.secondaryHeaderLength plan.ocfPresent plan.config = .ok b := by
  have htotal : plan.overhead.total + 0 ≤ length := h
  obtain ⟨draft, hdraft⟩ := Draft.Answers.exists_plan htotal
  exact ⟨_, bind_eq_ok_iff.mpr ⟨(), checkRange_eq_ok_iff.mpr hmax,
    bind_eq_ok_iff.mpr ⟨draft, hdraft, rfl⟩⟩⟩

/-- A valid frame is built again from what its accessors say. -/
theorem rebuild {f : Frame} {d : Bytes} {config : Config} (hdecode : Frame.decode d config = .ok f)
    (hv : f.isValid = true) (hplain : f.PlainSecondaryHeader) :
    f.bytes = d ∧ ∃ b, create d.length (f.secondaryHeaderData?.getD []).length f.header.ocfPresent
        config = .ok b ∧
      ∀ steps, (∀ s, s ∈ steps ↔ s ∈ f.setters) →
        accepted Builder.apply b steps = steps ∧ (b.run steps).build = .ok f := by
  have hd := Frame.decode_eq_ok_iff.mp hdecode
  obtain ⟨hpresent, hsecondary, hmax, hoverhead, hheaders⟩ := Plan.of_spec hd hplain
  have hroom : d.length - (Plan.of f config).overhead.total = f.dataField.length := by
    rw [hoverhead, ← hd.bytes, f.length_dataField, FrameBytes.dataFieldLength]
  have hfits : (Plan.of f config).overhead.total ≤ d.length := hoverhead ▸ hd.bytes ▸ f.fits
  obtain ⟨b, hc⟩ := exists_create hmax hfits
  refine ⟨hd.bytes, b, hc, fun steps hsteps => ?_⟩
  have hcreate := (Obeys.create hc).1
  have hfit : ∀ s ∈ steps, s.Fits (Plan.of f config) := fun s hs =>
    fits_of_mem_setters hd hplain ((hsteps s).mp hs)
  have haccepted := hcreate.accepted_eq hfit
  have h := hcreate.run steps
  rw [haccepted, told_setters hd hplain hsteps, hroom] at h
  refine ⟨haccepted, ?_⟩
  have hadded : (steps.flatMap Step.data).take f.dataField.length = f.dataField :=
    take_flatMap_of_mem (fun s hs => data_of_mem_setters ((hsteps s).mp hs))
      ⟨.addData f.dataField, (hsteps _).mpr (by simp [Frame.setters]), rfl⟩
  obtain ⟨contents, hcontents, hbytes⟩ :=
    (hoverhead ▸ h.draft).exists_toBytes hv hadded (List.nil_append f.dataField)
  have hpart : Part.get? (b.run steps).secondaryHeader? .secondaryHeader =
      .ok f.secondaryHeaderData? :=
    h.secondaryHeader.get_of_isSome fun hp => hsecondary.trans (hpresent.symm.trans hp)
  rw [build, hcontents, ok_bind, hpart, ok_bind, h.agreed, h.header]
  show Frame.decode (contents.toBytes (f.header.encode ++ secondaryBytes f.secondaryHeaderData?) [])
    { config with strict := false } = .ok f
  rw [hheaders, hbytes, hd.bytes]
  exact Frame.decode_eq_ok_iff.mpr { hd with valid := fun _ => hv }

end Builder

/-- Since there is the frame, the lengths of its parts together are a word. -/
theorem StagedBuilder.rebuild (a : Arithmetic) {f : Frame} {d : Bytes} {config : Config}
    (hdecode : Frame.decode d config = .ok f) (hstorable : d.Storable) (hv : f.isValid = true)
    (hplain : f.PlainSecondaryHeader) :
    ∃ m, (create a d.length (f.secondaryHeaderData?.getD []).length f.header.ocfPresent config).run =
        some (.ok m) ∧
      ∀ steps, (∀ s, s ∈ steps ↔ s ∈ f.setters) → (machine a).Builds m steps f.stored := by
  obtain ⟨-, b, hb, hbuild⟩ := Builder.rebuild hdecode hv hplain
  have hd := Frame.decode_eq_ok_iff.mp hdecode
  obtain ⟨-, -, -, hoverhead, -⟩ := Builder.Plan.of_spec hd hplain
  let plan := Builder.Plan.of f config
  have hfits : plan.overhead.total ≤ d.length := hoverhead ▸ hd.bytes ▸ f.fits
  have htotal : plan.overhead.total ≤ maxBytes := Nat.le_trans hfits hstorable
  have hword := two_mul_maxBytes
  have htotal' : plan.overhead.total < wordSize := by omega
  have hlength : d.length < wordSize := Nat.lt_of_le_of_lt hstorable (by decide)
  obtain ⟨m, hm, -, rfl⟩ := (create_agrees a hlength fun _ => htotal').exists_run_ok
    (not_or.mpr ⟨Nat.not_lt.mpr htotal, Nat.not_lt.mpr hstorable⟩) hb
  have hb : Builder.create d.length plan.secondaryHeaderLength plan.ocfPresent plan.config = .ok b := hb
  obtain ⟨hobeys, hsum⟩ := Builder.Obeys.create hb
  refine ⟨_, hm, fun steps hsteps => ?_⟩
  obtain ⟨haccepted, hframe⟩ := hbuild steps hsteps
  rw [Bytes.Storable, hsum] at hstorable
  exact (follows a hstorable).builds hobeys haccepted hframe

end SpaceLink.Tm
