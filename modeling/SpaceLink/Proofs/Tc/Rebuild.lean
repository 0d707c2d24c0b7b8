import Mathlib.Data.List.Basic
import SpaceLink.Proofs.Tc.Staged

/-!
# Building a TC frame again

A frame has a setter for each field of its header and each of its parts (`Frame.setters`). The
builder of a frame like it (`Builder.like`), which is that of its control command if it has one,
takes them all, in any order, and builds the frame they were taken from (`Builder.rebuild`), unless
bits are set that no field has, or the frame is of the type that builders do not make.
-/

namespace SpaceLink.Tc

/-- The bits of the header that no field has are zero. -/
def Frame.SpareBitsZero (f : Frame) : Prop := ∀ b ∈ f.bytes[0]?, bits b.toNat 2 2 = 0

instance (f : Frame) : Decidable f.SpareBitsZero :=
  inferInstanceAs (Decidable (∀ b ∈ f.bytes[0]?, _))

/-- The steps that say what a frame has, its data apart. -/
def Frame.setters (f : Frame) : List Builder.Step :=
  [.scid f.header.scid, .vcid f.header.vcid, .frameSequenceNumber f.header.frameSequenceNumber,
    .bypass f.header.bypass] ++
  f.segmentHeader?.toList.map (fun h => .segmentHeader h.sequenceFlag h.mapId) ++
  f.securityHeader.present?.toList.map .securityHeader ++
  f.securityTrailer.present?.toList.map .securityTrailer

/-- The steps say what a frame has and nothing else. The data of a frame with a command need not be
among them. -/
structure Frame.RetoldBy (f : Frame) (steps : List Builder.Step) : Prop where
  all : ∀ s ∈ f.setters, s ∈ steps
  data : f.frameType = .bc ∨ .addData f.dataField ∈ steps
  only : ∀ s ∈ steps, s ∈ f.setters ∨ s = .addData f.dataField

namespace Builder

/-- A builder for frames like this one. -/
def like (f : Frame) (config : Config) : Except Error Builder :=
  match f.controlCommand? with
  | some command => ofCommand command config.fecfPresent
  | none => create f.bytes.length config

/-- What such a builder is created for. -/
def Plan.like (f : Frame) (config : Config) : Plan :=
  match f.controlCommand? with
  | some command => ofCommand command config.fecfPresent
  | none => { frameLength := f.bytes.length, config, command? := none }

/-- A plan that agrees with a frame. -/
structure Plan.Suits (p : Plan) (f : Frame) : Prop where
  isCommand : p.isCommand = f.header.controlCommand
  bypass : p.isCommand = true → f.header.bypass = true
  frameLength : p.frameLength = f.header.frameLength
  overhead : p.config.dataOverhead = f.overhead
  segmented : p.config.segmented = p.config.segmentedIn f.frameType
  body : f.frameType = .bc ∧ p.body = f.dataField ∨ f.frameType ≠ .bc ∧ p.body = []
  decodes : f.Decodes f.bytes p.config

/-- What a builder demands of a step. -/
def Step.Fits (plan : Plan) : Step → Prop
  | .scid n => n ≤ maxScid
  | .vcid n => n ≤ maxVcid
  | .segmentHeader _ id => plan.config.segmented = true ∧ id ≤ SegmentHeader.maxMapId
  | .securityHeader d => d.length = plan.config.securityHeaderLength
  | .securityTrailer d => d.length = plan.config.securityTrailerLength
  | .frameSequenceNumber _ | .bypass _ | .addData _ => True

section

variable {b : Builder} {plan : Plan} {t : Told}

/-- A step that fits is accepted. -/
theorem Obeys.exists_apply (h : b.Obeys plan t) {s : Step} (hs : s.Fits plan) :
    ∃ b', b.apply s = .ok b' := by
  cases s with
  | scid n | vcid n =>
    exact ⟨_, bind_eq_ok_iff.mpr ⟨(), checkRange_eq_ok_iff.mpr hs, rfl⟩⟩
  | segmentHeader flag id =>
    have hsegmented : b.config.segmented = true := by
      rw [h.agreed]
      exact hs.1
    rw [Builder.apply, if_pos hsegmented]
    exact ⟨_, bind_eq_ok_iff.mpr ⟨(), checkRange_eq_ok_iff.mpr hs.2, rfl⟩⟩
  | securityHeader d =>
    obtain ⟨draft, hd⟩ := h.draft.exists_setSecurityHeader hs
    exact ⟨_, bind_eq_ok_iff.mpr ⟨draft, hd, rfl⟩⟩
  | securityTrailer d =>
    obtain ⟨draft, hd⟩ := h.draft.exists_setSecurityTrailer hs
    exact ⟨_, bind_eq_ok_iff.mpr ⟨draft, hd, rfl⟩⟩
  | frameSequenceNumber _ | bypass _ | addData _ => exact ⟨_, rfl⟩

theorem Obeys.accepted_eq (h : b.Obeys plan t) {steps : List Step}
    (hs : ∀ s ∈ steps, s.Fits plan) : accepted Builder.apply b steps = steps := by
  refine accepted_eq_self Builder.apply (p := fun b => ∃ t, b.Obeys plan t) ⟨t, h⟩ ?_
  rintro b ⟨t, h⟩ s hmem
  obtain ⟨b', hb⟩ := h.exists_apply (hs s hmem)
  exact ⟨b', hb, _, h.apply hb⟩

end

section

variable {f : Frame} {config : Config} {plan : Plan} {steps : List Step}

/-- The plan of a frame that decodes agrees with it, unless it is of the reserved type. -/
theorem Plan.suits_like (hd : f.Decodes f.bytes config) (hv : f.isValid = true)
    (htype : f.frameType ≠ .reserved) : (Plan.like f config).Suits f := by
  have hlength : f.bytes.length = f.overhead.total + f.dataField.length := by
    have := f.fits
    rw [f.length_dataField, FrameBytes.dataFieldLength]
    omega
  by_cases hbc : f.frameType = .bc
  · obtain ⟨hbypass, hcommand⟩ := Header.frameType_eq_bc_iff.mp hbc
    have hlike : Plan.like f config = ofCommand (.decode f.dataField) config.fecfPresent := by
      rw [Plan.like, Frame.controlCommand?, if_pos hbc]
    have hdecodes : f.Decodes f.bytes (Plan.like f config).config := by
      rw [hlike]
      exact hd.of_bc hbc hv rfl
    have hoverhead : (Plan.like f config).config.dataOverhead = f.overhead := by
      rw [hd.overhead, hbc, hlike]
      rfl
    refine ⟨?_, fun _ => hbypass, ?_, hoverhead, ?_, .inl ⟨hbc, ?_⟩, hdecodes⟩
    · rw [hlike, hcommand]
      rfl
    · rw [hd.frameLength, hlength, ← hoverhead, hlike, frameLength_ofCommand,
        ControlCommand.encode_decode]
    · rw [hlike, hbc]
      rfl
    · rw [hlike]
      exact ControlCommand.encode_decode _
  · have hlike : Plan.like f config =
        { frameLength := f.bytes.length, config, command? := none } := by
      rw [Plan.like, Frame.controlCommand?, if_neg hbc]
    have hcommand : f.header.controlCommand = false := by
      rw [Frame.frameType, Header.frameType] at hbc htype
      cases hb : f.header.bypass <;> cases hc : f.header.controlCommand <;>
        simp [hb, hc] at hbc htype ⊢
    rw [hlike]
    exact ⟨hcommand.symm, (absurd · Bool.false_ne_true), hd.frameLength.symm,
      (hd.overhead.trans (config.overheadIn_of_ne_bc hbc)).symm,
      (config.segmentedIn_of_ne_bc hbc).symm, .inr ⟨hbc, rfl⟩, hd⟩

theorem Plan.Suits.room_eq (hp : plan.Suits f) : plan.room = f.dataField.length := by
  rw [room, hp.overhead, hp.frameLength, hp.decodes.frameLength, f.length_dataField,
    FrameBytes.dataFieldLength]

theorem fits_of_mem_setters (hp : plan.Suits f) {s : Step}
    (hs : s ∈ f.setters ∨ s = .addData f.dataField) : s.Fits plan := by
  have hfits := Header.fits_of_decode hp.decodes.header
  simp only [Frame.setters, List.mem_append, List.mem_cons, List.not_mem_nil, or_false,
    List.mem_map, Option.mem_toList] at hs
  rcases hs with ((((rfl | rfl | rfl | rfl) | ⟨x, hx, rfl⟩) | ⟨e, he, rfl⟩) | ⟨e, he, rfl⟩) | rfl
  · exact hfits.scid
  · exact hfits.vcid
  · trivial
  · trivial
  · rcases hp.decodes.segmentHeader_cases with ⟨-, hnone⟩ | ⟨hsegmented, b, -, hsome⟩
    · rw [hnone] at hx
      cases hx
    · rw [hsome] at hx
      cases hx
      exact ⟨hp.segmented.trans hsegmented, Nat.le_of_lt_succ (bits_lt _ _ _)⟩
  · rw [Bytes.eq_of_mem_present? he]
    exact f.length_securityHeader.trans (hp.overhead ▸ rfl)
  · rw [Bytes.eq_of_mem_present? he]
    exact f.length_securityTrailer.trans (hp.overhead ▸ rfl)
  · trivial

/-- What the setters say is the frame. -/
theorem told_setters (hp : plan.Suits f) (h : f.RetoldBy steps) :
    told plan steps = {
      header := f.header, segmentHeader? := f.segmentHeader?
      request := {
        securityHeader? := f.securityHeader.present?
        securityTrailer? := f.securityTrailer.present?
        ocf? := f.ocf?
        userData := plan.body ++ steps.flatMap Step.data } } := by
  have key {α : Type} {value? : Step → Option α} (a? : Option α)
      (ha : f.setters.filterMap value? = a?.toList) (hn : value? (.addData f.dataField) = none) :
      last? value? steps = a? :=
    last?_of_setters h.all
      (fun s hs => (h.only s hs).imp_right fun hs => (congrArg value? hs).trans hn) ha
  have hocf : f.ocf? = none := by
    rw [FrameBytes.ocf?_eq, ← hp.overhead]
    rfl
  have hbypass : (plan.isCommand || f.header.bypass) = f.header.bypass := by
    cases hc : plan.isCommand with
    | true => rw [hp.bypass hc, Bool.true_or]
    | false => rw [Bool.false_or]
  rw [told, ← hp.decodes.version_eq, hp.frameLength, hocf]
  rw [key (some f.header.bypass) (by simp [Frame.setters]) rfl, Option.getD_some, hbypass,
    hp.isCommand,
    key (some f.header.scid) (by simp [Frame.setters]) rfl,
    key (some f.header.vcid) (by simp [Frame.setters]) rfl,
    key (some f.header.frameSequenceNumber) (by simp [Frame.setters]) rfl,
    key f.segmentHeader? (by simp [Frame.setters]) rfl,
    key f.securityHeader.present? (by simp [Frame.setters]) rfl,
    key f.securityTrailer.present? (by simp [Frame.setters]) rfl]
  rfl

/-- All that is added, a command that is there from the start included, begins with the data of the
frame. -/
theorem take_added (hp : plan.Suits f) (h : f.RetoldBy steps) :
    (plan.body ++ steps.flatMap Step.data).take f.dataField.length = f.dataField := by
  rcases hp.body with ⟨-, hbody⟩ | ⟨hbc, hbody⟩
  · rw [hbody, List.take_left]
  · rw [hbody, List.nil_append]
    refine take_flatMap_of_mem (fun s hs => ?_)
      ⟨.addData f.dataField, h.data.resolve_left hbc, rfl⟩
    rcases h.only s hs with hs | rfl
    · cases s with
      | addData e => simp [Frame.setters] at hs
      | _ => exact .inr rfl
    · exact .inl rfl

/-- The segment header that a builder writes is the one that the frame has. -/
theorem Obeys.segmentHeader_eq {b : Builder} {t : Told} (h : b.Obeys plan t) (hp : plan.Suits f)
    (ht : t.segmentHeader? = f.segmentHeader?) :
    b.segmentHeader = .ok (f.segmentHeader?.map (·.encode)).toList := by
  rw [Builder.segmentHeader, h.segmentHeader, ht, h.agreed]
  dsimp only
  rw [hp.segmented]
  rcases hp.decodes.segmentHeader_cases with ⟨hsegmented, hnone⟩ | ⟨hsegmented, b, -, hsome⟩
  · rw [hsegmented, hnone]
    rfl
  · rw [hsegmented, hsome]
    rfl

end

/-- There is a builder for every frame that decodes. -/
theorem exists_like {f : Frame} {config : Config} (hp : (Plan.like f config).Suits f) :
    ∃ b, like f config = .ok b ∧ b.Obeys (Plan.like f config) (told (Plan.like f config) []) ∧
      (Plan.like f config).Sound := by
  have hmax : (Plan.like f config).frameLength ≤ maxLength :=
    hp.frameLength ▸ (Header.fits_of_decode hp.decodes.header).frameLength
  have htotal :
      (Plan.like f config).config.dataOverhead.total ≤ (Plan.like f config).frameLength := by
    rw [hp.overhead, hp.frameLength, hp.decodes.frameLength]
    exact f.fits
  rw [like]
  unfold Plan.like at hmax htotal ⊢
  cases hc : f.controlCommand? with
  | some command =>
    rw [hc] at hmax
    obtain ⟨b, hb⟩ := exists_ofCommand hmax
    exact ⟨b, hb, Obeys.ofCommand hb⟩
  | none =>
    rw [hc] at hmax htotal
    obtain ⟨b, hb⟩ := exists_create hmax htotal
    exact ⟨b, hb, Obeys.create hb⟩

/-- A valid frame is built again from what its accessors say. -/
theorem rebuild {f : Frame} {d : Bytes} {config : Config} (hdecode : Frame.decode d config = .ok f)
    (hv : f.isValid = true) (hspare : f.SpareBitsZero) (htype : f.frameType ≠ .reserved) :
    f.bytes = d ∧ ∃ b, like f config = .ok b ∧ ∀ steps, f.RetoldBy steps →
      accepted Builder.apply b steps = steps ∧ (b.run steps).build = .ok f := by
  have hd := Frame.decode_eq_ok_iff.mp hdecode
  have hbytes := hd.bytes
  subst hbytes
  have hp := Plan.suits_like hd hv htype
  obtain ⟨b, hb, hcreate, hsound⟩ := exists_like hp
  refine ⟨rfl, b, hb, fun steps hsteps => ?_⟩
  have haccepted := hcreate.accepted_eq fun s hs => fits_of_mem_setters hp (hsteps.only s hs)
  have h := hcreate.run steps
  rw [haccepted, told_setters hp hsteps] at h
  have hdraft := h.draft
  rw [hp.room_eq, hp.overhead] at hdraft
  obtain ⟨contents, hcontents, hbytes⟩ :=
    hdraft.exists_toBytes hv (take_added hp hsteps) (List.nil_append f.dataField)
  refine ⟨haccepted, ?_⟩
  rw [build, hcontents, ok_bind, h.segmentHeader_eq hp rfl, ok_bind, h.agreed, h.header,
    hp.decodes.headers_eq hspare, hbytes]
  exact Frame.decode_eq_ok_iff.mpr { hp.decodes with valid := fun _ => hv }

end Builder

namespace StagedBuilder

/-- A builder in memory for frames like this one. -/
def like (a : Arithmetic) (f : Frame) (config : Config) : Program StagedBuilder :=
  match f.controlCommand? with
  | some command => ofCommand a command config.fecfPresent
  | none => create a f.bytes.length config

theorem like_agrees (a : Arithmetic) {f : Frame} {config : Config}
    (hp : (Builder.Plan.like f config).Suits f) :
    (like a f config).Agrees False (fun m b => m = b.staged) (Builder.like f config) := by
  have hfits : (Builder.Plan.like f config).config.dataOverhead.total ≤ maxLength := by
    have hmax : f.header.frameLength ≤ maxLength :=
      (Header.fits_of_decode hp.decodes.header).frameLength
    rw [hp.decodes.frameLength] at hmax
    rw [hp.overhead]
    exact Nat.le_trans f.fits hmax
  rw [like, Builder.like]
  rw [Builder.Plan.like] at hfits
  cases hc : f.controlCommand? with
  | some command => exact ofCommand_agrees a command config.fecfPresent
  | none =>
    rw [hc] at hfits
    have hmemory : config.dataOverhead.total ≤ maxBytes :=
      Nat.le_trans hfits maxLength_le_maxBytes
    have hword := two_mul_maxBytes
    exact (create_agrees a fun _ => by omega).of_not (Nat.not_lt.mpr hmemory)

/-- Since there is the frame, the lengths of its parts together are a word. -/
theorem rebuild (a : Arithmetic) {f : Frame} {d : Bytes} {config : Config}
    (hdecode : Frame.decode d config = .ok f) (hv : f.isValid = true) (hspare : f.SpareBitsZero)
    (htype : f.frameType ≠ .reserved) :
    ∃ m, (like a f config).run = some (.ok m) ∧
      ∀ steps, f.RetoldBy steps → (machine a).Builds m steps f.stored := by
  obtain ⟨-, b, hb, hbuild⟩ := Builder.rebuild hdecode hv hspare htype
  have hd := Frame.decode_eq_ok_iff.mp hdecode
  have hp := Builder.Plan.suits_like (hd.bytes ▸ hd) hv htype
  obtain ⟨b', hb', hobeys, hsound⟩ := Builder.exists_like hp
  cases hb.symm.trans hb'
  obtain ⟨m, hm, rfl⟩ := (like_agrees a hp).exists_run_ok id hb
  refine ⟨_, hm, fun steps hsteps => ?_⟩
  obtain ⟨haccepted, hframe⟩ := hbuild steps hsteps
  exact (follows a hsound).builds hobeys haccepted hframe

end StagedBuilder

end SpaceLink.Tc
