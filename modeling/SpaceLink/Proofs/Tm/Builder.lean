import SpaceLink.Tm.Builder
import SpaceLink.Proofs.Tm.Frame
import SpaceLink.Proofs.Draft

/-!
# What a TM builder builds

A `Plan` is what a builder is created for, and `told` is what the accepted steps ask for, in each
respect the last that was said. A builder `Obeys` both, and what it builds is a frame that has just
that and is read back by strict decoding (`Builder.build_told`). Decoding finds the secondary
header and the operational control field from the bytes, so that it has to arrive at the same
`Plan.overhead`.
-/

namespace SpaceLink.Tm

namespace Builder

/-! ## What the steps say -/

/-- What a builder is created for, the length of the frame apart. -/
structure Plan where
  /-- Without its first byte. -/
  secondaryHeaderLength : Nat
  ocfPresent : Bool
  config : Config

namespace Plan

variable (p : Plan)

def secondaryHeaderPresent : Bool := 0 < p.secondaryHeaderLength

/-- Length of the secondary header with its first byte. -/
def secondary : Nat := if p.secondaryHeaderPresent then 1 + p.secondaryHeaderLength else 0

def overhead : Overhead := p.config.overhead p.secondary p.ocfPresent

end Plan

structure Told where
  header : Header
  /-- Without its first byte. -/
  secondaryHeader? : Option Bytes
  request : Request

def Step.pointer? : Step → Option Nat
  | .firstHeaderPointer n => some n
  | .idle => some idlePointer
  | _ => none

def Step.data : Step → Bytes
  | .addData d => d
  | _ => []

/-- The last that the steps say, and all data that they add. -/
def told (plan : Plan) (steps : List Step) : Told where
  header := {
    version
    scid := (last? (fun | .scid n => some n | _ => none) steps).getD 0
    vcid := (last? (fun | .vcid n => some n | _ => none) steps).getD 0
    ocfPresent := plan.ocfPresent
    mcFrameCount := (last? (fun | .mcFrameCount n => some n | _ => none) steps).getD 0
    vcFrameCount := (last? (fun | .vcFrameCount n => some n | _ => none) steps).getD 0
    secondaryHeaderPresent := plan.secondaryHeaderPresent
    sync := (last? (fun | .sync v => some v | _ => none) steps).getD false
    packetOrder := (last? (fun | .packetOrder v => some v | _ => none) steps).getD false
    segmentLengthId := (last? (fun | .segmentLengthId n => some n | _ => none) steps).getD 0
    firstHeaderPointer := (last? Step.pointer? steps).getD 0 }
  secondaryHeader? := last? (fun | .secondaryHeader d => some d | _ => none) steps
  request := {
    securityHeader? := last? (fun | .securityHeader d => some d | _ => none) steps
    securityTrailer? := last? (fun | .securityTrailer d => some d | _ => none) steps
    ocf? := last? (fun | .ocf d => some d | _ => none) steps
    userData := steps.flatMap Step.data }

def Told.tell (t : Told) : Step → Told
  | .scid n => { t with header.scid := n }
  | .vcid n => { t with header.vcid := n }
  | .mcFrameCount n => { t with header.mcFrameCount := n }
  | .vcFrameCount n => { t with header.vcFrameCount := n }
  | .sync v => { t with header.sync := v }
  | .packetOrder v => { t with header.packetOrder := v }
  | .segmentLengthId n => { t with header.segmentLengthId := n }
  | .firstHeaderPointer n => { t with header.firstHeaderPointer := n }
  | .idle => { t with header.firstHeaderPointer := idlePointer }
  | .secondaryHeader d => { t with secondaryHeader? := some d }
  | .securityHeader d => { t with request.securityHeader? := some d }
  | .securityTrailer d => { t with request.securityTrailer? := some d }
  | .ocf d => { t with request.ocf? := some d }
  | .addData d => { t with request.userData := t.request.userData ++ d }

theorem told_concat (plan : Plan) (steps : List Step) (s : Step) :
    told plan (steps ++ [s]) = (told plan steps).tell s := by
  cases s <;> simp [told, Told.tell, last?_concat, Step.pointer?, Step.data]

/-! ## What the builder has -/

/-- A builder of frames with room for `room` bytes of user data has what it is asked for. -/
structure Obeys (b : Builder) (plan : Plan) (room : Nat) (t : Told) : Prop where
  agreed : b.config = { plan.config with strict := false }
  header : b.header = t.header
  fits : t.header.Fits
  ocfPresent : t.header.ocfPresent = plan.ocfPresent
  secondaryHeaderPresent : t.header.secondaryHeaderPresent = plan.secondaryHeaderPresent
  secondaryHeader : Part.Told? b.secondaryHeader? plan.secondaryHeaderLength
    plan.secondaryHeaderPresent t.secondaryHeader?
  secondaryHeaderLength : plan.secondaryHeaderLength ≤ maxSecondaryHeader
  draft : b.draft.Answers plan.overhead room t.request

namespace Obeys

variable {b b' : Builder} {plan : Plan} {room : Nat} {t : Told}

theorem create {length : Nat}
    (h : Builder.create length plan.secondaryHeaderLength plan.ocfPresent plan.config = .ok b) :
    b.Obeys plan (length - plan.overhead.total) (told plan []) ∧
      length = plan.overhead.total + (length - plan.overhead.total) := by
  obtain ⟨⟨⟩, hmax, h⟩ := bind_eq_ok_iff.mp h
  obtain ⟨draft, hdraft, h⟩ := bind_eq_ok_iff.mp h
  cases h
  obtain ⟨hanswers, hlength⟩ := Draft.Answers.plan (o := plan.overhead) hdraft
  refine ⟨⟨rfl, rfl, ?_, rfl, rfl, ?_, checkRange_eq_ok_iff.mp hmax, hanswers⟩,
    hlength⟩
  · exact ⟨show version < 4 by decide, Nat.zero_le _, Nat.zero_le _, Nat.zero_le _, Nat.zero_le _⟩
  · rw [Plan.secondaryHeaderPresent]
    dsimp only
    cases decide (0 < plan.secondaryHeaderLength) with
    | true => exact ⟨rfl, Part.told_declare _⟩
    | false => exact ⟨rfl, rfl⟩

theorem editHeader (h : b.Obeys plan room t) (g : Header → Header) (hg : (g t.header).Fits)
    (hocf : (g t.header).ocfPresent = t.header.ocfPresent)
    (hsecondary : (g t.header).secondaryHeaderPresent = t.header.secondaryHeaderPresent) :
    Obeys { b with header := g b.header } plan room { t with header := g t.header } :=
  { h with
    header := congrArg g h.header, fits := hg, ocfPresent := hocf.trans h.ocfPresent
    secondaryHeaderPresent := hsecondary.trans h.secondaryHeaderPresent }

/-- An accepted step does what it says. -/
theorem apply (h : b.Obeys plan room t) {s : Step} (hs : b.apply s = .ok b') :
    b'.Obeys plan room (t.tell s) := by
  cases s with
  | scid n =>
    obtain ⟨⟨⟩, hn, hs⟩ := bind_eq_ok_iff.mp hs
    cases hs
    exact h.editHeader (fun x => { x with scid := n })
      { h.fits with scid := checkRange_eq_ok_iff.mp hn } rfl rfl
  | vcid n =>
    obtain ⟨⟨⟩, hn, hs⟩ := bind_eq_ok_iff.mp hs
    cases hs
    exact h.editHeader (fun x => { x with vcid := n })
      { h.fits with vcid := checkRange_eq_ok_iff.mp hn } rfl rfl
  | mcFrameCount n =>
    cases hs
    exact h.editHeader (fun x => { x with mcFrameCount := n }) { h.fits with } rfl rfl
  | vcFrameCount n =>
    cases hs
    exact h.editHeader (fun x => { x with vcFrameCount := n }) { h.fits with } rfl rfl
  | sync v =>
    cases hs
    exact h.editHeader (fun x => { x with sync := v }) { h.fits with } rfl rfl
  | packetOrder v =>
    cases hs
    exact h.editHeader (fun x => { x with packetOrder := v }) { h.fits with } rfl rfl
  | segmentLengthId n =>
    obtain ⟨⟨⟩, hn, hs⟩ := bind_eq_ok_iff.mp hs
    cases hs
    exact h.editHeader (fun x => { x with segmentLengthId := n })
      { h.fits with segmentLengthId := checkRange_eq_ok_iff.mp hn } rfl rfl
  | firstHeaderPointer n =>
    obtain ⟨⟨⟩, hn, hs⟩ := bind_eq_ok_iff.mp hs
    cases hs
    exact h.editHeader (fun x => { x with firstHeaderPointer := n })
      { h.fits with firstHeaderPointer := checkRange_eq_ok_iff.mp hn } rfl rfl
  | idle =>
    cases hs
    exact h.editHeader (fun x => { x with firstHeaderPointer := idlePointer })
      { h.fits with firstHeaderPointer := show idlePointer ≤ noPacketPointer by decide } rfl rfl
  | secondaryHeader d =>
    obtain ⟨p?, hp, hs⟩ := bind_eq_ok_iff.mp hs
    cases hs
    exact { h with secondaryHeader := h.secondaryHeader.set hp }
  | ocf d =>
    obtain ⟨draft, hd, hs⟩ := bind_eq_ok_iff.mp hs
    cases hs
    exact { h with draft := h.draft.setOcf hd }
  | securityHeader d =>
    obtain ⟨draft, hd, hs⟩ := bind_eq_ok_iff.mp hs
    cases hs
    exact { h with draft := h.draft.setSecurityHeader hd }
  | securityTrailer d =>
    obtain ⟨draft, hd, hs⟩ := bind_eq_ok_iff.mp hs
    cases hs
    exact { h with draft := h.draft.setSecurityTrailer hd }
  | addData d =>
    cases hs
    exact { h with draft := h.draft.addData d }

/-- Any sequence of steps does what those of them say that are accepted. -/
theorem run (h : b.Obeys plan room (told plan [])) (steps : List Step) :
    (b.run steps).Obeys plan room (told plan (accepted Builder.apply b steps)) :=
  attemptAll_accepted Builder.apply (p := fun taken b => b.Obeys plan room (told plan taken)) h
    (fun taken _ s _ hb hs => told_concat plan taken s ▸ hb.apply hs) steps

end Obeys

/-! ## The secondary header -/

/-- The secondary header as it stands in the frame: its first byte is the length of the rest. -/
def secondaryBytes : Option Bytes → Bytes
  | some data => (pack [(2, 0), (6, data.length)]).toUInt8 :: data
  | none => []

/-- Its first byte has the length. -/
theorem toUInt8_pack_length {n : Nat} (hn : n ≤ maxSecondaryHeader) :
    (pack [(2, 0), (6, n)]).toUInt8 = n.toUInt8 := by
  rw [maxSecondaryHeader] at hn
  have : pack [(2, 0), (6, n)] = n := by
    simp only [pack, List.foldl, Nat.shiftLeft_eq]
    omega
  rw [this]

/-- The decoder finds the length of a secondary header that the builder has written. -/
theorem secondaryHeaderLength_secondaryBytes {h : Header} {secondary? : Option Bytes}
    (hpresent : secondary?.isSome = h.secondaryHeaderPresent)
    (hmax : ∀ data ∈ secondary?, data.length ≤ maxSecondaryHeader) (rest : Bytes) :
    secondaryHeaderLength h (h.encode ++ secondaryBytes secondary? ++ rest) =
      .ok (secondaryBytes secondary?).length := by
  cases secondary? with
  | none =>
    rw [secondaryHeaderLength, ← hpresent]
    rfl
  | some data =>
    have hdata := hmax data rfl
    have hfirst : (h.encode ++ data.length.toUInt8 :: (data ++ rest))[headerLength]? =
        some data.length.toUInt8 :=
      List.getElem?_append_right (Nat.le_of_eq h.length_encode)
    rw [secondaryHeaderLength, ← hpresent, Option.isSome_some, if_pos rfl, secondaryBytes,
      toUInt8_pack_length hdata, List.append_assoc, List.cons_append, hfirst]
    dsimp only
    rw [maxSecondaryHeader] at hdata
    rw [bits_eq, toNat_toUInt8, List.length_cons]
    congr 2
    omega

/-! ## What is built -/

/-- A frame has what a builder was asked for, and the given user data. -/
structure Granted (f : Frame) (t : Told) (data : Bytes) : Prop where
  header : f.header = t.header
  secondaryHeader : f.secondaryHeader? = t.secondaryHeader?.map fun d => d.length.toUInt8 :: d
  secondaryHeaderData : f.secondaryHeaderData? = t.secondaryHeader?
  securityHeader : f.securityHeader = t.request.securityHeader?.getD []
  securityTrailer : f.securityTrailer = t.request.securityTrailer?.getD []
  ocf : f.ocf? = t.request.ocf?
  data : f.dataField = data

section

variable {b : Builder} {plan : Plan} {room : Nat} {t : Told} {f : Frame}

theorem build_eq_ok (hb : b.build = .ok f) :
    ∃ contents secondary?, b.draft.finish = .ok contents ∧
      Part.get? b.secondaryHeader? .secondaryHeader = .ok secondary? ∧
      f.Decodes (contents.toBytes (b.header.encode ++ secondaryBytes secondary?) []) b.config := by
  obtain ⟨contents, hcontents, hb⟩ := bind_eq_ok_iff.mp hb
  obtain ⟨secondary?, hsecondary, hb⟩ := bind_eq_ok_iff.mp hb
  exact ⟨contents, secondary?, hcontents, hsecondary, Frame.decode_eq_ok_iff.mp hb⟩

theorem Obeys.secondary (h : b.Obeys plan room t) {secondary? : Option Bytes}
    (hs : Part.get? b.secondaryHeader? .secondaryHeader = .ok secondary?) :
    secondary? = t.secondaryHeader? ∧ secondary?.isSome = plan.secondaryHeaderPresent ∧
      (secondaryBytes secondary?).length = plan.secondary ∧
      ∀ data ∈ secondary?, data.length ≤ maxSecondaryHeader := by
  obtain ⟨htold, hpresent, hlength⟩ := h.secondaryHeader.get (fun hp => of_decide_eq_true hp) hs
  refine ⟨htold, hpresent, ?_, fun data hdata => hlength data hdata ▸ h.secondaryHeaderLength⟩
  rw [Plan.secondary, ← hpresent]
  cases secondary? with
  | none => rfl
  | some data =>
    rw [secondaryBytes, List.length_cons, hlength data rfl, Nat.add_comm]
    rfl

/-- The decoder finds the header, and with it the length of the secondary header. -/
theorem Obeys.header_encode (h : b.Obeys plan room t) {secondary? : Option Bytes}
    (hs : Part.get? b.secondaryHeader? .secondaryHeader = .ok secondary?) (rest : Bytes) :
    Header.decode (b.header.encode ++ secondaryBytes secondary? ++ rest) = some t.header ∧
      Tm.secondaryHeaderLength t.header (b.header.encode ++ secondaryBytes secondary? ++ rest) =
        .ok plan.secondary := by
  obtain ⟨-, hpresent, hlength, hmax⟩ := h.secondary hs
  rw [h.header]
  refine ⟨?_, ?_⟩
  · rw [List.append_assoc, Header.decode_encode h.fits]
  · rw [secondaryHeaderLength_secondaryBytes (hpresent.trans h.secondaryHeaderPresent.symm) hmax,
      hlength]

/-- The frame that is decoded has the plan of the builder. -/
theorem Obeys.overhead_eq (h : b.Obeys plan room t) {secondary? : Option Bytes}
    (hs : Part.get? b.secondaryHeader? .secondaryHeader = .ok secondary?) {rest : Bytes}
    (hd : f.Decodes (b.header.encode ++ secondaryBytes secondary? ++ rest)
      { plan.config with strict := false }) :
    f.header = b.header ∧ f.overhead = plan.overhead := by
  obtain ⟨hheader, hlength⟩ := h.header_encode hs rest
  have hread : f.header = t.header := Option.some.inj (hd.header.symm.trans hheader)
  obtain ⟨secondary, hsecondary, hoverhead⟩ := hd.overhead
  rw [hread, hlength] at hsecondary
  cases hsecondary
  refine ⟨hread.trans h.header.symm, hoverhead.trans ?_⟩
  rw [hread, h.ocfPresent]
  rfl

theorem build_granted (h : b.Obeys plan room t) (hb : b.build = .ok f) :
    Granted f t (t.request.userData.take room) ∧ f.isValid = true ∧
      f.bytes.length = plan.overhead.total + room ∧
      f.Decodes f.bytes { plan.config with strict := false } := by
  obtain ⟨contents, secondary?, hcontents, hsecondary, hdecodes⟩ := build_eq_ok hb
  rw [h.agreed] at hdecodes
  obtain ⟨rest, hrest⟩ :=
    contents.toBytes_eq_append (b.header.encode ++ secondaryBytes secondary?) []
  obtain ⟨hread, ho⟩ := h.overhead_eq hsecondary (hrest ▸ hdecodes)
  obtain ⟨htold, hpresent, hlength, hmax⟩ := h.secondary hsecondary
  obtain ⟨hfits, hdata, hroom, hheader, htrailer, hocf⟩ := h.draft.finish hcontents
  have hheaders : (b.header.encode ++ secondaryBytes secondary?).length =
      plan.overhead.headers := by
    rw [List.length_append, Header.length_encode, hlength]
    rfl
  obtain ⟨p1, p2, p3, p4, p5, p6⟩ := (ho ▸ hfits).parts hdecodes.bytes (ho ▸ hheaders)
  have hsecondaryHeader : f.secondaryHeader? = secondary?.map fun d => d.length.toUInt8 :: d := by
    rw [Frame.secondaryHeader?, hread, h.header, h.secondaryHeaderPresent, ← hpresent, p1,
      List.drop_left' (Header.length_encode _)]
    cases secondary? with
    | none => rfl
    | some data =>
      rw [secondaryBytes, toUInt8_pack_length (hmax data rfl)]
      rfl
  refine ⟨⟨hread.trans h.header, htold ▸ hsecondaryHeader, ?_, p2.trans hheader,
    p4.trans htrailer, p5.trans hocf, p3.trans hdata⟩, p6, ?_, hdecodes.bytes.symm ▸ hdecodes⟩
  · rw [Frame.secondaryHeaderData?, hsecondaryHeader, htold, Option.map_map]
    exact Option.map_id'
  · rw [hdecodes.bytes, hfits.length_toBytes hheaders, hroom]
    rfl

end

/-- A frame that is built has the last of everything that accepted steps asked for, and as much as it
holds of the data they added. Its check is right, and strict decoding reads it back. -/
theorem build_told {length secondaryHeaderLength : Nat} {ocfPresent : Bool} {config : Config}
    {b : Builder} {steps : List Step} {f : Frame}
    (hc : create length secondaryHeaderLength ocfPresent config = .ok b)
    (hb : (b.run steps).build = .ok f) :
    let plan : Plan := { secondaryHeaderLength, ocfPresent, config }
    let t := told plan (accepted Builder.apply b steps)
    let capacity := length - plan.overhead.total
    Granted f t (t.request.userData.take capacity) ∧ f.bytes.length = length ∧
      f.isValid = true ∧ Frame.decode f.bytes { config with strict := true } = .ok f := by
  intro plan t capacity
  obtain ⟨hcreate, hlength⟩ : b.Obeys plan capacity (told plan []) ∧
      length = plan.overhead.total + capacity := Obeys.create hc
  obtain ⟨hgranted, hvalid, hlen, hdecodes⟩ := build_granted (hcreate.run steps) hb
  exact ⟨hgranted, hlen.trans hlength.symm, hvalid,
    Frame.decode_eq_ok_iff.mpr { hdecodes with valid := fun _ => hvalid }⟩

/-- A frame with every part. Some of the steps are refused, some are taken back by later ones, and not
all data fits. -/
theorem build_told_full :
    let config : Config := { securityHeaderLength := 1, securityTrailerLength := 2 }
    let steps : List Step := [.scid 2000, .scid 300, .addData [1, 2], .secondaryHeader [1],
      .secondaryHeader [9, 8, 7], .ocf [1, 2, 3], .ocf [1, 2, 3, 4], .securityHeader [7],
      .securityTrailer [5, 6], .vcFrameCount 255, .firstHeaderPointer 1, .addData [3, 4, 5],
      .segmentLengthId 4, .secondaryHeader [6, 5, 4], .vcid 5]
    ∃ b f, create 22 3 true config = .ok b ∧ (b.run steps).build = .ok f ∧
      f.header = {
        version, scid := 300, vcid := 5, ocfPresent := true, mcFrameCount := 0, vcFrameCount := 255
        secondaryHeaderPresent := true, sync := false, packetOrder := false, segmentLengthId := 0
        firstHeaderPointer := 1 } ∧
      f.secondaryHeader? = some [3, 6, 5, 4] ∧ f.dataField = [1, 2, 3] ∧
      Frame.decode f.bytes { config with strict := true } = .ok f := by
  intro config steps
  let b : Builder := {
    header := {
      version, scid := 0, vcid := 0, ocfPresent := true, mcFrameCount := 0, vcFrameCount := 0
      secondaryHeaderPresent := true, sync := false, packetOrder := false, segmentLengthId := 0
      firstHeaderPointer := 0 }
    secondaryHeader? := some (Part.declare 3)
    config
    draft := {
      capacity := 3, userData := [], securityHeader := Part.declare 1
      securityTrailer := Part.declare 2, ocf? := some (Part.declare ocfLength)
      fecfPresent := true } }
  have hc : create 22 3 true config = .ok b := rfl
  obtain ⟨f, hb⟩ : ∃ f, (b.run steps).build = .ok f :=
    exists_eq_ok_of_isOk (by decide +kernel)
  obtain ⟨hgranted, -, -, hdecode⟩ := build_told hc hb
  exact ⟨b, f, hc, hb, hgranted.header, hgranted.secondaryHeader, hgranted.data, hdecode⟩

end Builder

end SpaceLink.Tm
