import SpaceLink.Aos.Builder
import SpaceLink.Proofs.Aos.Frame
import SpaceLink.Proofs.Draft

/-!
# What an AOS builder builds

`told` is what the accepted steps ask for, in each respect the last that was said. A builder
`Obeys` it, and what it builds is a frame that has just that and is read back by strict decoding
(`Builder.build_run`).
-/

namespace SpaceLink.Aos

namespace Builder

/-! ## What the steps say -/

structure Told where
  header : Header
  pointer? : Option Nat
  insertZone? : Option Bytes
  request : Request

/-- The pointer that marks idle data, for types of user data that have a pointer. -/
def idlePointerOf? : UserDataType → Option Nat
  | .mpdu => some idlePointer
  | .bpdu => some idleBitstream
  | .vca | .idle => none

/-- The pointer that a step asks for in a frame with the given type of user data. -/
def Step.pointer? (type : UserDataType) : Step → Option Nat
  | .firstHeaderPointer n | .bitstreamDataPointer n => some n
  | .idle => idlePointerOf? type
  | _ => none

def Step.data : Step → Bytes
  | .addData d => d
  | _ => []

/-- The last that the steps say, and all data that they add. -/
def told (type : UserDataType) (steps : List Step) : Told where
  header := {
    version
    scid := (last? (fun | .scid n => some n | _ => none) steps).getD 0
    vcid := (last? (fun | .vcid n => some n | _ => none) steps).getD 0
    vcFrameCount := (last? (fun | .vcFrameCount n => some n | _ => none) steps).getD 0
    replay := (last? (fun | .replay v => some v | _ => none) steps).getD false
    vcFrameCountUsage := (last? (fun | .vcFrameCountUsage v => some v | _ => none) steps).getD false
    vcFrameCountCycle := (last? (fun | .vcFrameCountCycle n => some n | _ => none) steps).getD 0 }
  pointer? := last? (Step.pointer? type) steps
  insertZone? := last? (fun | .insertZone d => some d | _ => none) steps
  request := {
    securityHeader? := last? (fun | .securityHeader d => some d | _ => none) steps
    securityTrailer? := last? (fun | .securityTrailer d => some d | _ => none) steps
    ocf? := last? (fun | .ocf d => some d | _ => none) steps
    userData := steps.flatMap Step.data }

def Told.tell (type : UserDataType) (t : Told) (s : Step) : Told :=
  match s with
  | .scid n => { t with header.scid := n }
  | .vcid n => { t with header.vcid := n }
  | .vcFrameCount n => { t with header.vcFrameCount := n }
  | .replay v => { t with header.replay := v }
  | .vcFrameCountUsage v => { t with header.vcFrameCountUsage := v }
  | .vcFrameCountCycle n => { t with header.vcFrameCountCycle := n }
  | .firstHeaderPointer _ | .bitstreamDataPointer _ | .idle =>
    { t with pointer? := (s.pointer? type).or t.pointer? }
  | .insertZone d => { t with insertZone? := some d }
  | .securityHeader d => { t with request.securityHeader? := some d }
  | .securityTrailer d => { t with request.securityTrailer? := some d }
  | .ocf d => { t with request.ocf? := some d }
  | .addData d => { t with request.userData := t.request.userData ++ d }

theorem told_concat (type : UserDataType) (steps : List Step) (s : Step) :
    told type (steps ++ [s]) = (told type steps).tell type s := by
  cases s <;> simp [told, Told.tell, last?_concat, Step.pointer?, Step.data]

/-! ## What the builder has -/

def maxPointer? : UserDataType → Option Nat
  | .mpdu => some noPacketPointer
  | .bpdu => some fullBitstream
  | .vca | .idle => none

theorem maxPointer?_of_idle {type : UserDataType} {n : Nat} (h : n ∈ idlePointerOf? type) :
    ∃ max ∈ maxPointer? type, n ≤ max := by
  cases type with
  | mpdu =>
    cases h
    exact ⟨noPacketPointer, rfl, by decide⟩
  | bpdu =>
    cases h
    exact ⟨fullBitstream, rfl, by decide⟩
  | vca | idle => cases h

/-- A builder of frames with room for `room` bytes of user data has what it is asked for. -/
structure Obeys (b : Builder) (config : Config) (room : Nat) (t : Told) : Prop where
  agreed : b.config = { config with strict := false }
  header : b.header = t.header
  fits : t.header.Fits
  pointer : b.pointer? = t.pointer?
  pointerFits : ∀ n ∈ t.pointer?, ∃ max ∈ maxPointer? config.userDataType, n ≤ max
  insertZone : b.insertZone.Told config.insertZoneLength t.insertZone?
  draft : b.draft.Answers config.overhead room t.request

namespace Obeys

variable {b b' : Builder} {config : Config} {room : Nat} {t : Told}

theorem create {length : Nat} (h : Builder.create length config = .ok b) :
    b.Obeys config (length - config.overhead.total - pduHeaderOf config.userDataType)
        (told config.userDataType []) ∧
      length = config.overhead.total + pduHeaderOf config.userDataType +
        (length - config.overhead.total - pduHeaderOf config.userDataType) := by
  obtain ⟨draft, hdraft, h⟩ := bind_eq_ok_iff.mp h
  cases h
  obtain ⟨hanswers, hlength⟩ := Draft.Answers.plan hdraft
  refine ⟨⟨rfl, rfl, ?_, rfl, nofun, Part.told_declare _, hanswers⟩, hlength⟩
  exact ⟨show version < 4 by decide, Nat.zero_le _, Nat.zero_le _, Nat.zero_le _, Nat.zero_le _⟩

theorem editHeader (h : b.Obeys config room t) (g : Header → Header) (hg : (g t.header).Fits) :
    Obeys { b with header := g b.header } config room { t with header := g t.header } :=
  { h with header := congrArg g h.header, fits := hg }

theorem setPointer (h : b.Obeys config room t) {pointer? : Option Nat}
    (hp : ∀ n ∈ pointer?, ∃ max ∈ maxPointer? config.userDataType, n ≤ max) :
    Obeys { b with pointer? } config room { t with pointer? } :=
  { h with pointer := rfl, pointerFits := hp }

theorem userDataType (h : b.Obeys config room t) : b.config.userDataType = config.userDataType := by
  rw [h.agreed]

/-- A frame with the required type of user data. -/
theorem eq_of_require (h : b.Obeys config room t) {type : UserDataType}
    (hr : b.require type = .ok ()) : config.userDataType = type := by
  rw [require] at hr
  split at hr
  · exact h.userDataType.symm.trans ‹_›
  · cases hr

/-- An accepted step does what it says. -/
theorem apply (h : b.Obeys config room t) {s : Step} (hs : b.apply s = .ok b') :
    b'.Obeys config room (t.tell config.userDataType s) := by
  cases s with
  | scid n =>
    obtain ⟨⟨⟩, hn, hs⟩ := bind_eq_ok_iff.mp hs
    cases hs
    exact h.editHeader (fun x => { x with scid := n })
      { h.fits with scid := checkRange_eq_ok_iff.mp hn }
  | vcid n =>
    obtain ⟨⟨⟩, hn, hs⟩ := bind_eq_ok_iff.mp hs
    cases hs
    exact h.editHeader (fun x => { x with vcid := n })
      { h.fits with vcid := checkRange_eq_ok_iff.mp hn }
  | vcFrameCount n =>
    obtain ⟨⟨⟩, hn, hs⟩ := bind_eq_ok_iff.mp hs
    cases hs
    exact h.editHeader (fun x => { x with vcFrameCount := n })
      { h.fits with vcFrameCount := checkRange_eq_ok_iff.mp hn }
  | replay v =>
    cases hs
    exact h.editHeader (fun x => { x with replay := v }) { h.fits with }
  | vcFrameCountUsage v =>
    cases hs
    exact h.editHeader (fun x => { x with vcFrameCountUsage := v }) { h.fits with }
  | vcFrameCountCycle n =>
    obtain ⟨⟨⟩, hn, hs⟩ := bind_eq_ok_iff.mp hs
    cases hs
    exact h.editHeader (fun x => { x with vcFrameCountCycle := n })
      { h.fits with vcFrameCountCycle := checkRange_eq_ok_iff.mp hn }
  | firstHeaderPointer n =>
    obtain ⟨⟨⟩, htype, hs⟩ := bind_eq_ok_iff.mp hs
    obtain ⟨⟨⟩, hn, hs⟩ := bind_eq_ok_iff.mp hs
    cases hs
    refine h.setPointer fun m hm => ⟨noPacketPointer, ?_, ?_⟩
    · rw [h.eq_of_require htype]
      rfl
    · cases hm
      exact checkRange_eq_ok_iff.mp hn
  | bitstreamDataPointer n =>
    obtain ⟨⟨⟩, htype, hs⟩ := bind_eq_ok_iff.mp hs
    obtain ⟨⟨⟩, hn, hs⟩ := bind_eq_ok_iff.mp hs
    cases hs
    refine h.setPointer fun m hm => ⟨fullBitstream, ?_, ?_⟩
    · rw [h.eq_of_require htype]
      rfl
    · cases hm
      exact checkRange_eq_ok_iff.mp hn
  | idle =>
    cases hs
    have hidle : b.idlePointer? = (idlePointerOf? config.userDataType).or t.pointer? := by
      rw [idlePointer?, h.userDataType, h.pointer]
      cases config.userDataType with
      | mpdu | bpdu => exact Option.some_or.symm
      | vca | idle => exact Option.none_or.symm
    rw [hidle]
    refine h.setPointer fun n hn => ?_
    rcases Option.or_eq_some_iff.mp hn with hn | ⟨-, hn⟩
    · exact maxPointer?_of_idle hn
    · exact h.pointerFits n hn
  | insertZone d =>
    obtain ⟨p, hp, hs⟩ := bind_eq_ok_iff.mp hs
    cases hs
    exact { h with insertZone := h.insertZone.set hp }
  | ocf d =>
    obtain ⟨draft, hd, hs⟩ := bind_eq_ok_iff.mp hs
    cases hs
    exact { h with draft := h.draft.setOcf hd }
  | securityHeader d =>
    obtain ⟨draft, hd, hs⟩ := bind_eq_ok_iff.mp hs
    cases hs
    exact { h with draft := h.draft.setSecurityHeader hd }
  | securityTrailer d =>
    obtain ⟨draft, hd, hs⟩ := bind_eq_ok_iff.mp hs
    cases hs
    exact { h with draft := h.draft.setSecurityTrailer hd }
  | addData d =>
    cases hs
    exact { h with draft := h.draft.addData d }

/-- Any sequence of steps does what those of them say that are accepted. -/
theorem run (h : b.Obeys config room (told config.userDataType [])) (steps : List Step) :
    (b.run steps).Obeys config room
      (told config.userDataType (accepted Builder.apply b steps)) :=
  attemptAll_accepted Builder.apply
    (p := fun taken b => b.Obeys config room (told config.userDataType taken)) h
    (fun taken _ s _ hb hs => told_concat config.userDataType taken s ▸ hb.apply hs) steps

/-- A pointer that fits is read back. -/
private theorem read_pointer {n width : Nat} (hw : width ≤ 16) (hn : n < 2 ^ width) (zone : Bytes) :
    bits (Bytes.toNatBE ((Bytes.ofNatBE pduHeaderLength n ++ zone).take pduHeaderLength)) 0 width =
      n := by
  have hlen : n < 65536 := Nat.lt_of_lt_of_le hn (Nat.pow_le_pow_right (by decide) hw)
  rw [List.take_left' (Bytes.length_ofNatBE _ _), Bytes.toNatBE_ofNatBE hlen, bits_eq,
    Nat.pow_zero, Nat.div_one, Nat.mod_eq_of_lt hn]

/-- The header of the data field, and the pointer that is read from it. -/
theorem pduHeader (h : b.Obeys config room t) {header : Bytes} (hp : b.pduHeader = .ok header) :
    header.length = pduHeaderOf config.userDataType ∧
      ∀ zone, pointerOf? config.userDataType (header ++ zone) = t.pointer? := by
  have hfits := h.pointerFits
  rw [Builder.pduHeader, h.userDataType, h.pointer] at hp
  cases htype : config.userDataType <;> cases hpointer : t.pointer? <;>
    rw [htype, hpointer] at hp hfits
  case mpdu.none | bpdu.none => cases hp
  case vca.some n | idle.some n =>
    obtain ⟨max, hmax, -⟩ := hfits n rfl
    cases hmax
  case vca.none | idle.none =>
    cases hp
    exact ⟨rfl, fun zone => rfl⟩
  case mpdu.some n | bpdu.some n =>
    cases hp
    obtain ⟨max, hmax, hle⟩ := hfits n rfl
    cases hmax
    exact ⟨rfl, fun zone => congrArg some (read_pointer (by decide) (Nat.lt_succ_of_le hle) zone)⟩

theorem fhec_eq (h : b.Obeys config room t) :
    b.fhec = b.header.checkBytes config.fhecPresent := by
  rw [fhec, h.agreed]
  rfl

theorem length_headers (h : b.Obeys config room t) {insertZone : Bytes}
    (hl : insertZone.length = config.insertZoneLength) :
    (b.header.encode ++ b.fhec ++ insertZone).length = config.overhead.headers := by
  rw [List.length_append, List.length_append, Header.length_encode, h.fhec_eq,
    Header.length_checkBytes, hl]
  rfl

end Obeys

/-! ## What is built -/

/-- A frame has what a builder was asked for, and the given user data. -/
structure Granted (f : Frame) (t : Told) (data : Bytes) : Prop where
  header : f.header = t.header
  insertZone : f.insertZone?.getD [] = t.insertZone?.getD []
  securityHeader : f.securityHeader = t.request.securityHeader?.getD []
  securityTrailer : f.securityTrailer = t.request.securityTrailer?.getD []
  ocf : f.ocf? = t.request.ocf?
  pointer : f.pointer? = t.pointer?
  data : f.Holds data

section

variable {b : Builder} {config : Config} {room : Nat} {t : Told} {f : Frame}

theorem build_eq_ok (hb : b.build = .ok f) :
    ∃ contents insertZone pduHeader, b.draft.finish = .ok contents ∧
      b.insertZone.get .insertZone = .ok insertZone ∧ b.pduHeader = .ok pduHeader ∧
      f.Decodes (contents.toBytes (b.header.encode ++ b.fhec ++ insertZone) pduHeader) b.config := by
  obtain ⟨contents, hcontents, hb⟩ := bind_eq_ok_iff.mp hb
  obtain ⟨insertZone, hinsert, hb⟩ := bind_eq_ok_iff.mp hb
  obtain ⟨pduHeader, hpdu, hb⟩ := bind_eq_ok_iff.mp hb
  exact ⟨contents, insertZone, pduHeader, hcontents, hinsert, hpdu, Frame.decode_eq_ok_iff.mp hb⟩

theorem build_granted (h : b.Obeys config room t) (hb : b.build = .ok f) :
    Granted f t (t.request.userData.take room) ∧ f.isValid = true ∧
      (∃ rest, f.bytes = f.header.encode ++ f.header.checkBytes config.fhecPresent ++ rest) ∧
      f.bytes.length = config.overhead.total + pduHeaderOf config.userDataType + room ∧
      f.Decodes f.bytes { config with strict := false } := by
  obtain ⟨contents, insertZone, pduHeader, hcontents, hinsert, hpdu, hdecodes⟩ := build_eq_ok hb
  rw [h.agreed] at hdecodes
  obtain ⟨hfits, hdata, hroom, hheader, htrailer, hocf⟩ := h.draft.finish hcontents
  obtain ⟨hinsert, hlength⟩ := h.insertZone.get hinsert
  obtain ⟨hpduLength, hpointer⟩ := h.pduHeader hpdu
  have ho : f.overhead = config.overhead := hdecodes.overhead
  have hoverhead : contents.Fits f.overhead := ho ▸ hfits
  obtain ⟨p1, p2, p3, p4, p5, p6⟩ :=
    hoverhead.parts hdecodes.bytes (ho ▸ h.length_headers hlength)
  have hbytes : f.bytes = b.header.encode ++ b.header.checkBytes config.fhecPresent ++
      (insertZone ++ f.bytes.drop f.overhead.headers) := by
    rw [← h.fhec_eq, ← List.append_assoc, ← p1]
    exact (List.take_append_drop _ _).symm
  -- what was decoded are the bytes that the parts were put together to
  have hread : f.header = b.header := by
    have := hdecodes.header
    rw [← hdecodes.bytes, hbytes, List.append_assoc,
      Header.decode_encode (h.header ▸ h.fits)] at this
    exact (Option.some.inj this).symm
  have hlen : f.bytes.length = config.overhead.total + pduHeaderOf config.userDataType + room := by
    have hfield := congrArg List.length p3
    have := f.fits
    rw [FrameBytes.length_dataField, FrameBytes.dataFieldLength, ho, List.length_append, hpduLength,
      hroom] at hfield
    rw [ho] at this
    omega
  refine ⟨⟨hread.trans h.header, ?_, p2.trans hheader, p4.trans htrailer, p5.trans hocf, ?_, ?_⟩, p6,
    ⟨_, hread ▸ hbytes⟩, hlen, ?_⟩
  · rw [Frame.insertZone?_getD p1 (hlength.trans hdecodes.insertZoneLength.symm), hinsert]
  · rw [Frame.pointer?, hdecodes.userDataType, p3]
    exact hpointer _
  · rw [← hdata]
    exact Frame.holds_of_dataField p3 (hdecodes.userDataType ▸ hpduLength)
  · rw [← hdecodes.bytes] at hdecodes
    exact hdecodes

end

/-- A frame that is built has the last of everything that accepted steps asked for, and as much as it
holds of the data they added. Its checks are right, and strict decoding reads it back. -/
theorem build_run {length : Nat} {config : Config} {b : Builder} {steps : List Step} {f : Frame}
    (hc : create length config = .ok b) (hb : (b.run steps).build = .ok f) :
    let t := told config.userDataType (accepted Builder.apply b steps)
    let capacity := length - config.overhead.total - pduHeaderOf config.userDataType
    Granted f t (t.request.userData.take capacity) ∧
      f.userDataType = config.userDataType ∧ f.bytes.length = length ∧
      f.fhec? = (if config.fhecPresent then fhec? (f.bytes.take headerLength) else none) ∧
      f.isValid = true ∧ f.isHeaderValid = true ∧
      Frame.decode f.bytes { config with strict := true } = .ok f := by
  intro t capacity
  obtain ⟨hcreate, hlength⟩ := Obeys.create hc
  have h : (b.run steps).Obeys config capacity t :=
    attemptAll_accepted apply (p := fun taken b => b.Obeys config capacity
      (told config.userDataType taken)) hcreate
      (fun taken b s b' hb hs => told_concat config.userDataType taken s ▸ hb.apply hs) steps
  obtain ⟨hgranted, hvalid, ⟨rest, hbytes⟩, hlen, hdecodes⟩ := build_granted h hb
  have hheader : headerValid config.fhecPresent f.bytes = true := headerValid_of_checkBytes hbytes
  have hfhec : f.fhecPresent = config.fhecPresent := hdecodes.fhecPresent
  refine ⟨hgranted, hdecodes.userDataType, hlen.trans hlength.symm, ?_, hvalid, ?_,
    Frame.decode_eq_ok_iff.mpr
      { hdecodes with headerValid := fun _ => hheader, valid := fun _ => hvalid }⟩
  · rw [Frame.fhec?, hfhec, take_headerLength hbytes, Header.fhec?_encode]
    split
    · rw [slice_fhec hbytes ‹_›]
    · rfl
  · rw [Frame.isHeaderValid, hfhec, hheader]

/-- A frame with every part. Some of the steps are refused, some are taken back by later ones, and not
all data fits. -/
theorem build_run_full :
    let config : Config := {
      fhecPresent := true, insertZoneLength := 2, ocfPresent := true, securityHeaderLength := 1
      securityTrailerLength := 1 }
    let steps : List Step := [.scid 300, .scid 5, .addData [1, 2], .idle, .insertZone [9],
      .insertZone [10, 11], .ocf [1, 2, 3, 4], .securityHeader [7], .securityTrailer [8],
      .vcFrameCount 70000, .vcFrameCountUsage true, .firstHeaderPointer 1, .addData [3, 4, 5],
      .bitstreamDataPointer 8, .scid 42]
    ∃ b f, create 23 config = .ok b ∧ (b.run steps).build = .ok f ∧
      f.header = {
        version, scid := 42, vcid := 0, vcFrameCount := 70000, replay := false
        vcFrameCountUsage := true, vcFrameCountCycle := 0 } ∧
      f.pointer? = some 1 ∧ f.packetZone = .ok [1, 2, 3] ∧
      Frame.decode f.bytes { config with strict := true } = .ok f := by
  intro config steps
  let b : Builder := {
    header := {
      version, scid := 0, vcid := 0, vcFrameCount := 0, replay := false
      vcFrameCountUsage := false, vcFrameCountCycle := 0 }
    config, insertZone := Part.declare 2, pointer? := none
    draft := {
      capacity := 3, userData := [], securityHeader := Part.declare 1
      securityTrailer := Part.declare 1, ocf? := some (Part.declare ocfLength)
      fecfPresent := true } }
  have hc : create 23 config = .ok b := rfl
  have hok : (b.run steps).build.isOk = true := by decide +kernel
  obtain ⟨f, hb⟩ : ∃ f, (b.run steps).build = .ok f := by
    cases h : (b.run steps).build with
    | ok f => exact ⟨f, rfl⟩
    | error e => simp [h, Except.isOk, Except.toBool] at hok
  obtain ⟨hgranted, htype, -, -, -, -, hdecode⟩ := build_run hc hb
  have hdata := hgranted.data
  rw [Frame.Holds, htype] at hdata
  exact ⟨b, f, hc, hb, hgranted.header, hgranted.pointer, hdata, hdecode⟩

end Builder

end SpaceLink.Aos
