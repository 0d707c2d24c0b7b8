import Mathlib.Data.List.Basic
import SpaceLink.Proofs.Aos.Staged

/-!
# Building an AOS frame again

A frame has a setter for each field of its header, its pointer and each of its parts
(`Frame.setters`). A builder of the same length and parameters takes them all, in any order, and
builds the frame they were taken from (`Builder.rebuild`), unless bits are set that no field has.
-/

namespace SpaceLink.Aos

/-- The bits above the pointer in the header of the data field. -/
def sparePduBits : UserDataType → (word : Nat) → Nat
  | .mpdu, word => bits word 11 5
  | .bpdu, word => bits word 14 2
  | .vca, _ | .idle, _ => 0

/-- The bits of the header and of the header of the data field that no field has are zero. -/
def Frame.SpareBitsZero (f : Frame) : Prop :=
  (∀ b ∈ f.bytes[5]?, bits b.toNat 4 2 = 0) ∧
    sparePduBits f.userDataType (Bytes.toNatBE (f.dataField.take pduHeaderLength)) = 0

instance (f : Frame) : Decidable f.SpareBitsZero := inferInstanceAs (Decidable (_ ∧ _))

/-- The data that a builder has to be given. -/
def Frame.userData (f : Frame) : Bytes :=
  match f.userDataType with
  | .mpdu | .bpdu => f.pduZone
  | .vca | .idle => f.dataField

/-- The steps that say what a frame has. -/
def Frame.setters (f : Frame) : List Builder.Step :=
  [.scid f.header.scid, .vcid f.header.vcid, .vcFrameCount f.header.vcFrameCount,
    .replay f.header.replay, .vcFrameCountUsage f.header.vcFrameCountUsage,
    .vcFrameCountCycle f.header.vcFrameCountCycle, .addData f.userData] ++
  f.firstHeaderPointer.toOption.toList.map .firstHeaderPointer ++
  f.bitstreamDataPointer.toOption.toList.map .bitstreamDataPointer ++
  f.insertZone?.toList.map .insertZone ++ f.ocf?.toList.map .ocf ++
  f.securityHeader.present?.toList.map .securityHeader ++
  f.securityTrailer.present?.toList.map .securityTrailer

theorem Frame.length_userData (f : Frame) :
    f.userData.length = f.dataField.length - pduHeaderOf f.userDataType := by
  rw [userData]
  cases f.userDataType with
  | mpdu | bpdu => exact List.length_drop
  | vca | idle => rfl

theorem Frame.of_pointerFor {f : Frame} {type : UserDataType} {field : Field} {n : Nat}
    (h : (f.pointerFor type field).toOption = some n) :
    f.userDataType = type ∧ f.pointer? = some n := by
  rw [pointerFor] at h
  split at h
  · rename_i pointer hp
    cases h
    split at hp
    · exact ⟨‹_›, hp⟩
    · cases hp
  · cases h

/-- The two pointer setters have the pointer of the frame, if there is one. -/
theorem Frame.pointers_eq (f : Frame) :
    f.firstHeaderPointer.toOption.toList ++ f.bitstreamDataPointer.toOption.toList =
      f.pointer?.toList := by
  rw [firstHeaderPointer, bitstreamDataPointer, pointerFor, pointerFor, pointer?]
  cases f.userDataType <;> rfl

/-- The header of the data field is its pointer. -/
theorem Frame.Decodes.pduHeader_append {f : Frame} {d : Bytes} {config : Config} {n : Nat}
    (hd : f.Decodes d config) (hspare : f.SpareBitsZero) (hn : f.pointer? = some n) :
    Bytes.ofNatBE pduHeaderLength n ++ f.dataField.drop pduHeaderLength = f.dataField := by
  have hle := hd.pduHeaderOf_le
  obtain ⟨-, hspare⟩ := hspare
  rw [pointer?] at hn
  cases htype : f.userDataType with
  | vca | idle =>
    rw [htype] at hn
    cases hn
  | mpdu | bpdu =>
    rw [htype] at hn hspare hle
    have hlength : (f.dataField.take pduHeaderLength).length = pduHeaderLength :=
      List.length_take_of_le hle
    have hword : Bytes.toNatBE (f.dataField.take pduHeaderLength) = n := by
      have hlt : Bytes.toNatBE (f.dataField.take pduHeaderLength) < 65536 :=
        Bytes.toNatBE_lt hlength
      rw [← Option.some.inj hn]
      rw [sparePduBits, bits_eq] at hspare
      rw [bits_eq]
      generalize Bytes.toNatBE (f.dataField.take pduHeaderLength) = word at *
      omega
    rw [← hword, Bytes.ofNatBE_toNatBE hlength, List.take_append_drop]

namespace Builder

/-- What a builder demands of a step. -/
def Step.Fits (config : Config) : Step → Prop
  | .scid n => n ≤ maxScid
  | .vcid n => n ≤ maxVcid
  | .vcFrameCount n => n ≤ maxCount
  | .vcFrameCountCycle n => n ≤ 0xf
  | .firstHeaderPointer n => config.userDataType = .mpdu ∧ n ≤ noPacketPointer
  | .bitstreamDataPointer n => config.userDataType = .bpdu ∧ n ≤ fullBitstream
  | .insertZone d => d.length = config.insertZoneLength
  | .ocf d => config.ocfPresent = true ∧ d.length = ocfLength
  | .securityHeader d => d.length = config.securityHeaderLength
  | .securityTrailer d => d.length = config.securityTrailerLength
  | .replay _ | .vcFrameCountUsage _ | .idle | .addData _ => True

section

variable {b : Builder} {config : Config} {room : Nat} {t : Told}

theorem Obeys.require_of_eq (h : b.Obeys config room t) {type : UserDataType}
    (ht : config.userDataType = type) : b.require type = .ok () := by
  rw [require, if_pos (h.userDataType.trans ht)]

/-- A step that fits is accepted. -/
theorem Obeys.exists_apply (h : b.Obeys config room t) {s : Step} (hs : s.Fits config) :
    ∃ b', b.apply s = .ok b' := by
  cases s with
  | scid n | vcid n | vcFrameCount n | vcFrameCountCycle n =>
    exact ⟨_, bind_eq_ok_iff.mpr ⟨(), checkRange_eq_ok_iff.mpr hs, rfl⟩⟩
  | firstHeaderPointer n | bitstreamDataPointer n =>
    exact ⟨_, bind_eq_ok_iff.mpr ⟨(), h.require_of_eq hs.1,
      bind_eq_ok_iff.mpr ⟨(), checkRange_eq_ok_iff.mpr hs.2, rfl⟩⟩⟩
  | insertZone d =>
    obtain ⟨p, hp⟩ := h.insertZone.exists_set .insertZone hs
    exact ⟨_, bind_eq_ok_iff.mpr ⟨p, hp, rfl⟩⟩
  | ocf d =>
    obtain ⟨draft, hd⟩ := h.draft.exists_setOcf hs.1 hs.2
    exact ⟨_, bind_eq_ok_iff.mpr ⟨draft, hd, rfl⟩⟩
  | securityHeader d =>
    obtain ⟨draft, hd⟩ := h.draft.exists_setSecurityHeader hs
    exact ⟨_, bind_eq_ok_iff.mpr ⟨draft, hd, rfl⟩⟩
  | securityTrailer d =>
    obtain ⟨draft, hd⟩ := h.draft.exists_setSecurityTrailer hs
    exact ⟨_, bind_eq_ok_iff.mpr ⟨draft, hd, rfl⟩⟩
  | replay _ | vcFrameCountUsage _ | idle | addData _ => exact ⟨_, rfl⟩

theorem Obeys.accepted_eq (h : b.Obeys config room t) {steps : List Step}
    (hs : ∀ s ∈ steps, s.Fits config) : accepted Builder.apply b steps = steps := by
  refine accepted_eq_self Builder.apply (p := fun b => ∃ t, b.Obeys config room t) ⟨t, h⟩ ?_
  rintro b ⟨t, h⟩ s hmem
  obtain ⟨b', hb⟩ := h.exists_apply (hs s hmem)
  exact ⟨b', hb, _, h.apply hb⟩

end

section

variable {f : Frame} {d : Bytes} {config : Config} {steps : List Step}

theorem fits_of_mem_setters (hd : f.Decodes d config) {s : Step} (hs : s ∈ f.setters) :
    s.Fits config := by
  have hfits := Header.fits_of_decode hd.header
  have hoverhead := hd.overhead
  simp only [Frame.setters, List.mem_append, List.mem_cons, List.not_mem_nil, or_false,
    List.mem_map, Option.mem_toList] at hs
  rcases hs with ((((((rfl | rfl | rfl | rfl | rfl | rfl | rfl) | ⟨n, hn, rfl⟩) | ⟨n, hn, rfl⟩) |
    ⟨e, he, rfl⟩) | ⟨e, he, rfl⟩) | ⟨e, he, rfl⟩) | ⟨e, he, rfl⟩
  · exact hfits.scid
  · exact hfits.vcid
  · exact hfits.vcFrameCount
  · trivial
  · trivial
  · exact hfits.vcFrameCountCycle
  · trivial
  · obtain ⟨htype, hp⟩ := Frame.of_pointerFor hn
    rw [Frame.pointer?, htype] at hp
    cases hp
    exact ⟨hd.userDataType ▸ htype, Nat.le_of_lt_succ (bits_lt _ _ _)⟩
  · obtain ⟨htype, hp⟩ := Frame.of_pointerFor hn
    rw [Frame.pointer?, htype] at hp
    cases hp
    exact ⟨hd.userDataType ▸ htype, Nat.le_of_lt_succ (bits_lt _ _ _)⟩
  · exact hd.length_insertZone he
  · obtain ⟨hp, hlength⟩ := FrameBytes.length_of_mem_ocf? he
    rw [hoverhead] at hp
    exact ⟨hp, hlength⟩
  · rw [Bytes.eq_of_mem_present? he]
    exact f.length_securityHeader.trans (hoverhead ▸ rfl)
  · rw [Bytes.eq_of_mem_present? he]
    exact f.length_securityTrailer.trans (hoverhead ▸ rfl)

theorem data_of_mem_setters {s : Step} (hs : s ∈ f.setters) :
    s.data = f.userData ∨ s.data = [] := by
  cases s with
  | addData e =>
    have he : e = f.userData := by simpa [Frame.setters] using hs
    exact .inl he
  | _ => exact .inr rfl

/-- What the setters say is the frame. -/
theorem told_setters (hd : f.Decodes d config) (h : ∀ s, s ∈ steps ↔ s ∈ f.setters) :
    told f.userDataType steps = {
      header := f.header, pointer? := f.pointer?, insertZone? := f.insertZone?
      request := {
        securityHeader? := f.securityHeader.present?
        securityTrailer? := f.securityTrailer.present?
        ocf? := f.ocf?
        userData := steps.flatMap Step.data } } := by
  have key {α : Type} {value? : Step → Option α} (a? : Option α)
      (ha : f.setters.filterMap value? = a?.toList) : last? value? steps = a? :=
    last?_of_setters (fun s hs => (h s).mpr hs) (fun s hs => .inl ((h s).mp hs)) ha
  rw [told, ← hd.version_eq]
  rw [key (some f.header.scid) (by simp [Frame.setters]),
    key (some f.header.vcid) (by simp [Frame.setters]),
    key (some f.header.vcFrameCount) (by simp [Frame.setters]),
    key (some f.header.replay) (by simp [Frame.setters]),
    key (some f.header.vcFrameCountUsage) (by simp [Frame.setters]),
    key (some f.header.vcFrameCountCycle) (by simp [Frame.setters]),
    key f.pointer? (by
      simp [Frame.setters, ← f.pointers_eq, List.filterMap_cons, Step.pointer?, Function.comp_def]),
    key f.insertZone? (by simp [Frame.setters]),
    key f.securityHeader.present? (by simp [Frame.setters]),
    key f.securityTrailer.present? (by simp [Frame.setters]),
    key f.ocf? (by simp [Frame.setters])]
  rfl

end

/-- There is a builder for every length that the parts leave enough of. -/
theorem exists_create {length : Nat} {config : Config}
    (h : config.overhead.total + pduHeaderOf config.userDataType ≤ length) :
    ∃ b, create length config = .ok b := by
  obtain ⟨draft, hdraft⟩ := Draft.Answers.exists_plan h
  exact ⟨_, bind_eq_ok_iff.mpr ⟨draft, hdraft, rfl⟩⟩

/-- The header of the data field that a builder writes is the one that the frame has. -/
theorem Obeys.exists_pduHeader {b : Builder} {f : Frame} {d : Bytes} {config : Config} {room : Nat}
    {t : Told} (h : b.Obeys config room t) (hd : f.Decodes d config) (hspare : f.SpareBitsZero)
    (hp : t.pointer? = f.pointer?) :
    ∃ header, b.pduHeader = .ok header ∧ header ++ f.userData = f.dataField := by
  rw [Builder.pduHeader, h.userDataType, h.pointer, hp, ← hd.userDataType, Frame.userData]
  have hpointer : f.pointer? = pointerOf? f.userDataType f.dataField := rfl
  cases htype : f.userDataType with
  | vca | idle => exact ⟨[], rfl, rfl⟩
  | mpdu | bpdu =>
    rw [htype, pointerOf?] at hpointer
    rw [hpointer]
    exact ⟨_, rfl, hd.pduHeader_append hspare hpointer⟩

/-- A valid frame is built again from what its accessors say. -/
theorem rebuild {f : Frame} {d : Bytes} {config : Config} (hdecode : Frame.decode d config = .ok f)
    (hv : f.isValid = true) (hheader : f.isHeaderValid = true) (hspare : f.SpareBitsZero) :
    f.bytes = d ∧ ∃ b, create d.length config = .ok b ∧
      ∀ steps, (∀ s, s ∈ steps ↔ s ∈ f.setters) →
        accepted Builder.apply b steps = steps ∧ (b.run steps).build = .ok f := by
  have hd := Frame.decode_eq_ok_iff.mp hdecode
  have hfits := f.fits
  have hlength := f.length_dataField
  have hpdu := hd.pduHeaderOf_le
  rw [FrameBytes.dataFieldLength] at hlength
  rw [hd.bytes, hd.overhead] at hlength hfits
  rw [hd.userDataType] at hpdu
  have hroom : d.length - config.overhead.total - pduHeaderOf config.userDataType =
      f.userData.length := by
    rw [f.length_userData, hd.userDataType, hlength]
  have hfits : config.overhead.total + pduHeaderOf config.userDataType ≤ d.length := by omega
  obtain ⟨b, hc⟩ := exists_create hfits
  refine ⟨hd.bytes, b, hc, fun steps hsteps => ?_⟩
  have hcreate := (Obeys.create hc).1
  have haccepted := hcreate.accepted_eq fun s hs => fits_of_mem_setters hd ((hsteps s).mp hs)
  have h := hcreate.run steps
  rw [haccepted, hroom, ← hd.userDataType, told_setters hd hsteps] at h
  refine ⟨haccepted, ?_⟩
  have hadded : (steps.flatMap Step.data).take f.userData.length = f.userData :=
    take_flatMap_of_mem (fun s hs => data_of_mem_setters ((hsteps s).mp hs))
      ⟨.addData f.userData, (hsteps _).mpr (by simp [Frame.setters]), rfl⟩
  obtain ⟨header, hpduHeader, hfield⟩ := h.exists_pduHeader hd hspare rfl
  obtain ⟨contents, hcontents, hbytes⟩ :=
    (hd.overhead ▸ h.draft).exists_toBytes hv hadded hfield
  have hzone : (b.run steps).insertZone.get .insertZone = .ok (f.insertZone?.getD []) :=
    h.insertZone.get_of_isSome hd.insertZone_isSome_or
  have hheaders := hd.headers_eq hheader (hd.bytes ▸ hspare.1)
  rw [hd.fhecPresent] at hheaders
  rw [build, hcontents, ok_bind, hzone, ok_bind, hpduHeader, ok_bind, h.fhec_eq, h.agreed, h.header,
    hheaders, hbytes, hd.bytes]
  exact Frame.decode_eq_ok_iff.mpr {
    hd with headerValid := (absurd · Bool.false_ne_true), valid := fun _ => hv }

end Builder

/-- Since there is the frame, the lengths of its parts together are a word. -/
theorem StagedBuilder.rebuild (a : Arithmetic) {f : Frame} {d : Bytes} {config : Config}
    (hdecode : Frame.decode d config = .ok f) (hstorable : d.Storable)
    (hwords : config.InWords d.length) (hv : f.isValid = true) (hheader : f.isHeaderValid = true)
    (hspare : f.SpareBitsZero) :
    ∃ m, (create a d.length config).run = some (.ok m) ∧
      ∀ steps, (∀ s, s ∈ steps ↔ s ∈ f.setters) → (machine a).Builds m steps f.stored := by
  obtain ⟨-, b, hb, hbuild⟩ := Builder.rebuild hdecode hv hheader hspare
  obtain ⟨hobeys, hsum⟩ := Builder.Obeys.create hb
  have hlength := hstorable.length_lt
  rw [Bytes.Storable] at hstorable
  obtain ⟨m, hm, -, rfl⟩ := (create_agrees a (by omega) fun _ => by omega).exists_run_ok
    (by omega) hb
  refine ⟨_, hm, fun steps hsteps => ?_⟩
  obtain ⟨haccepted, hframe⟩ := hbuild steps hsteps
  refine (follows a (hsum ▸ hstorable) fun htype => ?_).builds hobeys haccepted hframe
  have hbits := hwords.2 htype
  have hpdu : pduHeaderOf config.userDataType = 2 := by rw [htype]; rfl
  rw [← config.total_overhead] at hbits
  omega

end SpaceLink.Aos
