import SpaceLink.Tc.Builder
import SpaceLink.Proofs.Tc.Frame
import SpaceLink.Proofs.Draft

/-!
# What a TC builder builds

A `Plan` is what a builder is created for, and `told` is what the accepted steps ask for, in each
respect the last that was said. A builder `Obeys` both. What it builds is a frame that has just that
and is read back by strict decoding; a builder for a control command builds its frame whatever the
steps (`Builder.build_data_and_command`).
-/

namespace SpaceLink.Tc

namespace Builder

/-! ## What the steps say -/

/-- What a builder is created for: a frame with data, or one that holds a command. -/
structure Plan where
  frameLength : Nat
  config : Config
  command? : Option ControlCommand

namespace Plan

variable (p : Plan)

def isCommand : Bool := p.command?.isSome

/-- What fills the frame before any step. -/
def body : Bytes := (p.command?.map (·.encode)).getD []

/-- How much user data the frame carries. -/
def room : Nat := p.frameLength - p.config.dataOverhead.total

/-- The plan of the frame for a command. -/
def ofCommand (command : ControlCommand) (fecfPresent : Bool) : Plan where
  frameLength := headerLength + command.encode.length + (if fecfPresent then fecfLength else 0)
  config := { fecfPresent }
  command? := some command

end Plan

structure Told where
  header : Header
  segmentHeader? : Option SegmentHeader
  request : Request

def Step.data : Step → Bytes
  | .addData d => d
  | _ => []

/-- The last that the steps say, and all data that they add. A command always has the bypass
flag. -/
def told (plan : Plan) (steps : List Step) : Told where
  header := {
    version
    bypass := plan.isCommand || (last? (fun | .bypass v => some v | _ => none) steps).getD false
    controlCommand := plan.isCommand
    scid := (last? (fun | .scid n => some n | _ => none) steps).getD 0
    vcid := (last? (fun | .vcid n => some n | _ => none) steps).getD 0
    frameLength := plan.frameLength
    frameSequenceNumber :=
      (last? (fun | .frameSequenceNumber n => some n | _ => none) steps).getD 0 }
  segmentHeader? :=
    last? (fun | .segmentHeader flag id => some { sequenceFlag := flag, mapId := id } | _ => none)
      steps
  request := {
    securityHeader? := last? (fun | .securityHeader d => some d | _ => none) steps
    securityTrailer? := last? (fun | .securityTrailer d => some d | _ => none) steps
    ocf? := none
    userData := plan.body ++ steps.flatMap Step.data }

def Told.tell (plan : Plan) (t : Told) : Step → Told
  | .scid n => { t with header.scid := n }
  | .vcid n => { t with header.vcid := n }
  | .frameSequenceNumber n => { t with header.frameSequenceNumber := n }
  | .bypass v => { t with header.bypass := plan.isCommand || v }
  | .segmentHeader flag id =>
    { t with segmentHeader? := some { sequenceFlag := flag, mapId := id } }
  | .securityHeader d => { t with request.securityHeader? := some d }
  | .securityTrailer d => { t with request.securityTrailer? := some d }
  | .addData d => { t with request.userData := t.request.userData ++ d }

theorem told_concat (plan : Plan) (steps : List Step) (s : Step) :
    told plan (steps ++ [s]) = (told plan steps).tell plan s := by
  cases s <;> simp [told, Told.tell, last?_concat, Step.data]

/-! ## What the builder has -/

/-- What holds of the plans of builders. The configuration of a builder for a command agrees with
what such frames are read by. -/
structure Plan.Sound (p : Plan) : Prop where
  frameLength : p.frameLength = p.config.dataOverhead.total + p.room
  frameLength_le : p.frameLength ≤ maxLength
  command : p.isCommand = true →
    p.config.segmented = false ∧ p.config.commandOverhead = p.config.dataOverhead

/-- A builder has what it is asked for. -/
structure Obeys (b : Builder) (plan : Plan) (t : Told) : Prop where
  agreed : b.config = { plan.config with strict := false }
  header : b.header = t.header
  version : t.header.version = version
  scid : t.header.scid ≤ maxScid
  vcid : t.header.vcid ≤ maxVcid
  frameLength : t.header.frameLength = plan.frameLength
  controlCommand : t.header.controlCommand = plan.isCommand
  bypass : plan.isCommand = true → t.header.bypass = true
  segmentHeader : b.segmentHeader? = t.segmentHeader?
  segmentHeaderFits : ∀ h ∈ t.segmentHeader?,
    plan.config.segmented = true ∧ h.mapId ≤ SegmentHeader.maxMapId
  draft : b.draft.Answers plan.config.dataOverhead plan.room t.request

theorem Plan.Sound.fits {plan : Plan} (hp : plan.Sound) {b : Builder} {t : Told}
    (h : b.Obeys plan t) : t.header.Fits where
  version := h.version ▸ by decide
  scid := h.scid
  vcid := h.vcid
  frameLength_pos := by
    have : 0 < headerLength := Nat.zero_lt_succ 4
    have := plan.config.headerLength_le_total
    have := hp.frameLength
    rw [h.frameLength]
    omega
  frameLength := h.frameLength ▸ hp.frameLength_le

namespace Obeys

variable {b b' : Builder} {plan : Plan} {t : Told}

theorem create {length : Nat} {config : Config} (h : Builder.create length config = .ok b) :
    let plan : Plan := { frameLength := length, config, command? := none }
    b.Obeys plan (told plan []) ∧ plan.Sound := by
  obtain ⟨⟨⟩, hmax, h⟩ := bind_eq_ok_iff.mp h
  obtain ⟨draft, hdraft, h⟩ := bind_eq_ok_iff.mp h
  cases h
  obtain ⟨hanswers, hlength⟩ := Draft.Answers.plan hdraft
  exact ⟨⟨rfl, rfl, rfl, Nat.zero_le _, Nat.zero_le _, rfl, rfl, nofun, rfl, nofun, hanswers⟩,
    hlength, checkRange_eq_ok_iff.mp hmax, nofun⟩

theorem ofCommand {command : ControlCommand} {fecfPresent : Bool}
    (h : Builder.ofCommand command fecfPresent = .ok b) :
    let plan := Plan.ofCommand command fecfPresent
    b.Obeys plan (told plan []) ∧ plan.Sound := by
  obtain ⟨b₀, hcreate, h⟩ := bind_eq_ok_iff.mp h
  cases h
  obtain ⟨hobeys, hsound⟩ := Obeys.create hcreate
  refine ⟨⟨hobeys.agreed, ?_, rfl, Nat.zero_le _, Nat.zero_le _, rfl, rfl, fun _ => rfl,
    hobeys.segmentHeader, nofun, ?_⟩, hsound.frameLength, hsound.frameLength_le,
    fun _ => ⟨rfl, rfl⟩⟩
  · rw [hobeys.header]
    rfl
  · have hrequest : (told (Plan.ofCommand command fecfPresent) []).request =
        ⟨none, none, none, command.encode⟩ :=
      congrArg (Request.mk none none none) (List.append_nil _)
    rw [hrequest]
    exact hobeys.draft.addData command.encode

/-- An accepted step does what it says. -/
theorem apply (h : b.Obeys plan t) {s : Step} (hs : b.apply s = .ok b') :
    b'.Obeys plan (t.tell plan s) := by
  cases s with
  | scid n =>
    obtain ⟨⟨⟩, hn, hs⟩ := bind_eq_ok_iff.mp hs
    cases hs
    exact { h with
      header := congrArg (fun x : Header => { x with scid := n }) h.header
      scid := checkRange_eq_ok_iff.mp hn }
  | vcid n =>
    obtain ⟨⟨⟩, hn, hs⟩ := bind_eq_ok_iff.mp hs
    cases hs
    exact { h with
      header := congrArg (fun x : Header => { x with vcid := n }) h.header
      vcid := checkRange_eq_ok_iff.mp hn }
  | frameSequenceNumber n =>
    cases hs
    exact { h with
      header := congrArg (fun x : Header => { x with frameSequenceNumber := n }) h.header }
  | bypass v =>
    cases hs
    have hflag : (if b.header.controlCommand then b.header.bypass else v) =
        (plan.isCommand || v) := by
      rw [h.header, h.controlCommand]
      cases hc : plan.isCommand with
      | true => exact h.bypass hc
      | false => rfl
    rw [hflag]
    exact { h with
      header := congrArg (fun x : Header => { x with bypass := plan.isCommand || v }) h.header
      bypass := fun hc => by rw [Told.tell, hc, Bool.true_or] }
  | segmentHeader flag id =>
    rw [Builder.apply] at hs
    split at hs
    · rename_i hsegmented
      obtain ⟨⟨⟩, hid, hs⟩ := bind_eq_ok_iff.mp hs
      cases hs
      refine { h with segmentHeader := rfl, segmentHeaderFits := fun x hx => ?_ }
      cases hx
      rw [h.agreed] at hsegmented
      exact ⟨hsegmented, checkRange_eq_ok_iff.mp hid⟩
    · cases hs
  | securityHeader d =>
    obtain ⟨draft, hd, hs⟩ := bind_eq_ok_iff.mp hs
    cases hs
    exact { h with draft := h.draft.setSecurityHeader hd }
  | securityTrailer d =>
    obtain ⟨draft, hd, hs⟩ := bind_eq_ok_iff.mp hs
    cases hs
    exact { h with draft := h.draft.setSecurityTrailer hd }
  | addData d =>
    cases hs
    exact { h with draft := h.draft.addData d }

/-- Any sequence of steps does what those of them say that are accepted. -/
theorem run (h : b.Obeys plan (told plan [])) (steps : List Step) :
    (b.run steps).Obeys plan (told plan (accepted Builder.apply b steps)) :=
  attemptAll_accepted Builder.apply (p := fun taken b => b.Obeys plan (told plan taken)) h
    (fun taken _ s _ hb hs => told_concat plan taken s ▸ hb.apply hs) steps

end Obeys

/-! ## What is built -/

/-- A frame has what a builder was asked for, and the given user data. -/
structure Granted (f : Frame) (t : Told) (data : Bytes) : Prop where
  header : f.header = t.header
  segmentHeader : f.segmentHeader? = t.segmentHeader?
  securityHeader : f.securityHeader = t.request.securityHeader?.getD []
  securityTrailer : f.securityTrailer = t.request.securityTrailer?.getD []
  data : f.dataField = data

section

variable {b : Builder} {plan : Plan} {t : Told} {f : Frame} {contents : Contents}
  {segmentBytes : Bytes}

theorem build_eq_ok (hb : b.build = .ok f) :
    ∃ contents segmentBytes, b.draft.finish = .ok contents ∧ b.segmentHeader = .ok segmentBytes ∧
      f.Decodes (contents.toBytes (b.header.encode ++ segmentBytes) []) b.config := by
  obtain ⟨contents, hcontents, hb⟩ := bind_eq_ok_iff.mp hb
  obtain ⟨segmentBytes, hsegment, hb⟩ := bind_eq_ok_iff.mp hb
  exact ⟨contents, segmentBytes, hcontents, hsegment, Frame.decode_eq_ok_iff.mp hb⟩

/-- The frame that is built has the type that the builder was created for, so it is read by the
builder's own configuration. -/
theorem Obeys.configIn (h : b.Obeys plan t) (hp : plan.Sound) :
    plan.config.segmentedIn t.header.frameType = plan.config.segmented ∧
      plan.config.overheadIn t.header.frameType = plan.config.dataOverhead := by
  cases hc : plan.isCommand with
  | true =>
    have htype : t.header.frameType = .bc :=
      Header.frameType_eq_bc_iff.mpr ⟨h.bypass hc, h.controlCommand.trans hc⟩
    obtain ⟨hsegmented, hoverhead⟩ := hp.command hc
    rw [htype, hsegmented]
    exact ⟨rfl, hoverhead⟩
  | false =>
    have htype : t.header.frameType ≠ .bc := fun ht => by
      have := (Header.frameType_eq_bc_iff.mp ht).2
      rw [h.controlCommand, hc] at this
      cases this
    exact ⟨plan.config.segmentedIn_of_ne_bc htype, plan.config.overheadIn_of_ne_bc htype⟩

/-- The segment header as it stands in the frame, and what is read from it. -/
theorem Obeys.read_segmentHeader (h : b.Obeys plan t) (hs : b.segmentHeader = .ok segmentBytes) :
    segmentBytes.length = (if plan.config.segmented then SegmentHeader.length else 0) ∧
      ∀ rest, readSegmentHeader (b.header.encode ++ segmentBytes ++ rest) plan.config.segmented =
        .ok t.segmentHeader? := by
  have hfits := h.segmentHeaderFits
  rw [Builder.segmentHeader, h.agreed, h.segmentHeader] at hs
  dsimp only at hs
  cases hsegmented : plan.config.segmented with
  | false =>
    rw [hsegmented, if_neg Bool.false_ne_true] at hs
    cases hs
    cases ht : t.segmentHeader? with
    | none => exact ⟨rfl, fun rest => rfl⟩
    | some x => exact absurd (hsegmented ▸ (hfits x ht).1) Bool.false_ne_true
  | true =>
    rw [hsegmented, if_pos rfl] at hs
    cases ht : t.segmentHeader? with
    | none =>
      rw [ht] at hs
      cases hs
    | some x =>
      rw [ht] at hs
      cases hs
      refine ⟨rfl, fun rest => ?_⟩
      have hfirst : (b.header.encode ++ ([x.encode] ++ rest))[headerLength]? = some x.encode :=
        List.getElem?_append_right (Nat.le_of_eq b.header.length_encode)
      rw [readSegmentHeader, if_pos rfl, List.append_assoc, hfirst]
      dsimp only
      rw [SegmentHeader.decode_encode (hfits x ht).2]

theorem Obeys.length_headers (h : b.Obeys plan t) (hs : b.segmentHeader = .ok segmentBytes) :
    (b.header.encode ++ segmentBytes).length = plan.config.dataOverhead.headers := by
  rw [List.length_append, Header.length_encode, (h.read_segmentHeader hs).1]
  rfl

/-- What is read as the header are the bytes that it was written to. -/
theorem Obeys.decode_header (h : b.Obeys plan t) (hp : plan.Sound) (contents : Contents)
    (segmentBytes : Bytes) :
    Header.decode (contents.toBytes (b.header.encode ++ segmentBytes) []) = some t.header := by
  obtain ⟨rest, hrest⟩ := contents.toBytes_eq_append (b.header.encode ++ segmentBytes) []
  rw [hrest, List.append_assoc, h.header, Header.decode_encode (hp.fits h)]

theorem Obeys.length_toBytes (h : b.Obeys plan t) (hp : plan.Sound)
    (hc : b.draft.finish = .ok contents) (hs : b.segmentHeader = .ok segmentBytes) :
    (contents.toBytes (b.header.encode ++ segmentBytes) []).length = plan.frameLength := by
  obtain ⟨hfits, -, hroom, -⟩ := h.draft.finish hc
  rw [hfits.length_toBytes (h.length_headers hs), hroom, hp.frameLength]
  rfl

theorem build_granted (h : b.Obeys plan t) (hp : plan.Sound) (hb : b.build = .ok f) :
    Granted f t (t.request.userData.take plan.room) ∧ f.isValid = true ∧
      f.bytes.length = plan.frameLength ∧
      f.Decodes f.bytes { plan.config with strict := false } := by
  obtain ⟨contents, segmentBytes, hcontents, hsegment, hdecodes⟩ := build_eq_ok hb
  rw [h.agreed] at hdecodes
  have hread : f.header = t.header := by
    have := hdecodes.header
    rw [h.decode_header hp] at this
    exact (Option.some.inj this).symm
  have htype : f.frameType = t.header.frameType := congrArg Header.frameType hread
  obtain ⟨hsegmentedIn, hoverheadIn⟩ := h.configIn hp
  have ho : f.overhead = plan.config.dataOverhead := by
    rw [hdecodes.overhead, htype]
    exact hoverheadIn
  obtain ⟨hfits, hdata, hroom, hheader, htrailer, -⟩ := h.draft.finish hcontents
  obtain ⟨-, p2, p3, p4, -, p6⟩ :=
    (ho ▸ hfits).parts hdecodes.bytes (ho ▸ h.length_headers hsegment)
  have hsegmentHeader : f.segmentHeader? = t.segmentHeader? := by
    have hsegmented :
        Config.segmentedIn { plan.config with strict := false } f.frameType =
          plan.config.segmented := htype ▸ hsegmentedIn
    obtain ⟨rest, hrest⟩ := contents.toBytes_eq_append (b.header.encode ++ segmentBytes) []
    have := hdecodes.segmentHeader
    rw [hrest, hsegmented, (h.read_segmentHeader hsegment).2 rest] at this
    exact (Except.ok.inj this).symm
  refine ⟨⟨hread, hsegmentHeader, p2.trans hheader, p4.trans htrailer, p3.trans hdata⟩, p6, ?_,
    hdecodes.bytes.symm ▸ hdecodes⟩
  rw [hdecodes.bytes, h.length_toBytes hp hcontents hsegment]

/-- A complete frame is decoded. -/
theorem Obeys.exists_decode (h : b.Obeys plan t) (hp : plan.Sound)
    (hc : b.draft.finish = .ok contents) (hs : b.segmentHeader = .ok segmentBytes) :
    ∃ f, Frame.decode (contents.toBytes (b.header.encode ++ segmentBytes) []) b.config = .ok f := by
  have hlength := h.length_toBytes hp hc hs
  have hheaderRead := h.decode_header hp contents segmentBytes
  obtain ⟨hsegmentedIn, hoverheadIn⟩ := h.configIn hp
  obtain ⟨rest, hrest⟩ := contents.toBytes_eq_append (b.header.encode ++ segmentBytes) []
  let f : Frame := {
    bytes := contents.toBytes (b.header.encode ++ segmentBytes) []
    overhead := plan.config.dataOverhead
    fits := by rw [hlength, hp.frameLength]; exact Nat.le_add_right _ _
    header := t.header
    segmentHeader? := t.segmentHeader? }
  have hdecodes : f.Decodes f.bytes { plan.config with strict := false } := by
    refine ⟨checkVersion_of_decode hheaderRead h.version, hheaderRead, ?_, ?_, rfl,
      hoverheadIn.symm, nofun⟩
    · rw [hlength]
      exact h.frameLength
    · have := (h.read_segmentHeader hs).2 rest
      rw [← hsegmentedIn, ← hrest] at this
      exact this
  rw [h.agreed]
  exact ⟨f, Frame.decode_eq_ok_iff.mpr hdecodes⟩

/-- Once all parts have been asked for and there is enough user data, there is a frame. -/
theorem exists_build (h : b.Obeys plan t) (hp : plan.Sound)
    (hdata : plan.room ≤ t.request.userData.length)
    (hheader : t.request.securityHeader?.isSome = true ∨ plan.config.securityHeaderLength = 0)
    (htrailer : t.request.securityTrailer?.isSome = true ∨ plan.config.securityTrailerLength = 0)
    (hsegment : plan.config.segmented = true → t.segmentHeader?.isSome = true) :
    ∃ f, b.build = .ok f := by
  obtain ⟨contents, hcontents⟩ := h.draft.exists_finish hdata hheader htrailer nofun
  obtain ⟨segmentBytes, hbytes⟩ : ∃ segmentBytes, b.segmentHeader = .ok segmentBytes := by
    rw [Builder.segmentHeader, h.agreed, h.segmentHeader]
    dsimp only
    split
    · obtain ⟨x, hx⟩ := Option.isSome_iff_exists.mp (hsegment ‹_›)
      rw [hx]
      exact ⟨_, rfl⟩
    · exact ⟨_, rfl⟩
  rw [build, hcontents, ok_bind, hbytes, ok_bind]
  exact h.exists_decode hp hcontents hbytes

end

/-- There is a builder for every length up to the longest that the parts leave enough of. -/
theorem exists_create {length : Nat} {config : Config} (hmax : length ≤ maxLength)
    (h : config.dataOverhead.total ≤ length) : ∃ b, create length config = .ok b := by
  have hroom : config.dataOverhead.total + 0 ≤ length := h
  obtain ⟨draft, hdraft⟩ := Draft.Answers.exists_plan hroom
  rw [create, checkRange_eq_ok_iff.mpr hmax, ok_bind, hdraft]
  exact ⟨_, rfl⟩

namespace Plan

/-- The plan of a command leaves room for just the command. -/
theorem frameLength_ofCommand (command : ControlCommand) (fecfPresent : Bool) :
    (ofCommand command fecfPresent).frameLength =
      (ofCommand command fecfPresent).config.dataOverhead.total + command.encode.length := by
  simp only [ofCommand, Config.dataOverhead, Overhead.total, Overhead.leading, Overhead.trailing,
    Overhead.ocf, Overhead.fecf, Bool.false_eq_true, if_false]
  omega

theorem room_ofCommand (command : ControlCommand) (fecfPresent : Bool) :
    (ofCommand command fecfPresent).room = command.encode.length := by
  rw [room, frameLength_ofCommand, Nat.add_sub_cancel_left]

end Plan

theorem exists_ofCommand {command : ControlCommand} {fecfPresent : Bool}
    (h : (Plan.ofCommand command fecfPresent).frameLength ≤ maxLength) :
    ∃ b, ofCommand command fecfPresent = .ok b := by
  have htotal : (Plan.ofCommand command fecfPresent).config.dataOverhead.total ≤
      (Plan.ofCommand command fecfPresent).frameLength :=
    Plan.frameLength_ofCommand command fecfPresent ▸ Nat.le_add_right _ _
  obtain ⟨b, hb⟩ := exists_create h htotal
  exact ⟨_, bind_eq_ok_iff.mpr ⟨b, hb, rfl⟩⟩

/-- A frame with data that is built has the last of everything that accepted steps asked for, and as
much as it holds of the data they added. The frame for a command is built whatever the steps, and has
the command as its data. Their checks are right, and strict decoding reads them back; for a command,
whatever is agreed for frames with data. -/
theorem build_data_and_command :
    (∀ length config b steps f, create length config = .ok b → (b.run steps).build = .ok f →
      let plan : Plan := { frameLength := length, config, command? := none }
      let t := told plan (accepted Builder.apply b steps)
      Granted f t (t.request.userData.take plan.room) ∧ f.bytes.length = length ∧
        f.isValid = true ∧ Frame.decode f.bytes { config with strict := true } = .ok f) ∧
    (∀ command fecfPresent steps,
      headerLength + command.encode.length + (if fecfPresent then fecfLength else 0) ≤ maxLength →
      ∃ b f, ofCommand command fecfPresent = .ok b ∧ (b.run steps).build = .ok f ∧
        let plan := Plan.ofCommand command fecfPresent
        Granted f (told plan (accepted Builder.apply b steps)) command.encode ∧
          f.bytes.length = plan.frameLength ∧ f.frameType = .bc ∧
          f.segmentHeader? = none ∧ f.securityHeader = [] ∧ f.securityTrailer = [] ∧
          f.controlCommand? = some (.decode command.encode) ∧
          (command.Plain → f.controlCommand? = some command) ∧ f.isValid = true ∧
          ∀ config : Config, config.fecfPresent = fecfPresent →
            Frame.decode f.bytes config = .ok f) := by
  constructor
  · intro length config b steps f hc hb plan t
    obtain ⟨hcreate, hsound⟩ := Obeys.create hc
    obtain ⟨hgranted, hvalid, hlength, hdecodes⟩ := build_granted (hcreate.run steps) hsound hb
    exact ⟨hgranted, hlength, hvalid,
      Frame.decode_eq_ok_iff.mpr { hdecodes with valid := fun _ => hvalid }⟩
  · intro command fecfPresent steps hmax
    obtain ⟨b, hc⟩ := exists_ofCommand hmax
    obtain ⟨hcreate, hsound⟩ := Obeys.ofCommand hc
    have hobeys := hcreate.run steps
    have hroom := Plan.room_ofCommand command fecfPresent
    have hdata : (told (Plan.ofCommand command fecfPresent)
        (accepted Builder.apply b steps)).request.userData =
        command.encode ++ (accepted Builder.apply b steps).flatMap Step.data := rfl
    obtain ⟨f, hb⟩ := exists_build hobeys hsound
      (by rw [hroom, hdata, List.length_append]; exact Nat.le_add_right _ _) (.inr rfl) (.inr rfl)
      nofun
    obtain ⟨hgranted, hvalid, hlength, hdecodes⟩ := build_granted hobeys hsound hb
    rw [hdata, hroom, List.take_left] at hgranted
    have htype : f.frameType = .bc :=
      Header.frameType_eq_bc_iff.mpr (hgranted.header ▸ ⟨rfl, rfl⟩)
    have hsegment := hdecodes.segmentHeader
    have ho := hdecodes.overhead
    rw [htype] at hsegment ho
    have hcommand : f.controlCommand? = some (.decode command.encode) := by
      rw [Frame.controlCommand?, if_pos htype, hgranted.data]
    refine ⟨b, f, hc, hb, hgranted, hlength, htype, (Except.ok.inj hsegment).symm, ?_, ?_, hcommand,
      fun hplain => ?_, hvalid, fun config hfecf =>
        Frame.decode_eq_ok_iff.mpr (hdecodes.of_bc htype hvalid hfecf)⟩
    · exact List.eq_nil_of_length_eq_zero (f.length_securityHeader.trans (ho ▸ rfl))
    · exact List.eq_nil_of_length_eq_zero (f.length_securityTrailer.trans (ho ▸ rfl))
    · rw [hcommand, ControlCommand.decode_encode hplain]

/-- A segment with security parts, where some of the steps are refused, some are taken back by later
ones, and not all data fits; and a command that the steps cannot change. -/
theorem build_data_and_command_full :
    let config : Config := {
      segmented := true, securityHeaderLength := 1, securityTrailerLength := 2 }
    let steps : List Step := [.scid 2000, .scid 300, .addData [1, 2], .bypass true,
      .segmentHeader .first 64, .segmentHeader .last 9, .securityHeader [7], .securityTrailer [5],
      .securityTrailer [5, 6], .frameSequenceNumber 255, .addData [3, 4, 5], .vcid 40]
    (∃ b f, create 14 config = .ok b ∧ (b.run steps).build = .ok f ∧
      f.header = {
        version, bypass := true, controlCommand := false, scid := 300, vcid := 40, frameLength := 14
        frameSequenceNumber := 255 } ∧
      f.segmentHeader? = some { sequenceFlag := .last, mapId := 9 } ∧ f.dataField = [1, 2, 3] ∧
      Frame.decode f.bytes { config with strict := true } = .ok f) ∧
    (∃ b f, ofCommand (.setVr 7) true = .ok b ∧
      (b.run (.bypass false :: steps)).build = .ok f ∧ f.frameType = .bc ∧
      f.controlCommand? = some (.setVr 7) ∧
      Frame.decode f.bytes { config with strict := true } = .ok f) := by
  intro config steps
  constructor
  · let b : Builder := {
      header := {
        version, bypass := false, controlCommand := false, scid := 0, vcid := 0, frameLength := 14
        frameSequenceNumber := 0 }
      segmentHeader? := none
      config
      draft := {
        capacity := 3, userData := [], securityHeader := Part.declare 1
        securityTrailer := Part.declare 2, ocf? := none, fecfPresent := true } }
    have hc : create 14 config = .ok b := rfl
    obtain ⟨f, hb⟩ : ∃ f, (b.run steps).build = .ok f :=
      exists_eq_ok_of_isOk (by decide +kernel)
    obtain ⟨hgranted, -, -, hdecode⟩ := build_data_and_command.1 _ _ _ _ _ hc hb
    exact ⟨b, f, hc, hb, hgranted.header, hgranted.segmentHeader, hgranted.data, hdecode⟩
  · obtain ⟨b, f, hc, hb, -, -, htype, -, -, -, -, hcommand, -, hdecode⟩ :=
      build_data_and_command.2 (.setVr 7) true (.bypass false :: steps) (by decide)
    exact ⟨b, f, hc, hb, htype, hcommand trivial, hdecode _ rfl⟩

end Builder

end SpaceLink.Tc
