import SpaceLink.Aos.Staged
import SpaceLink.Proofs.Machine
import SpaceLink.Proofs.Staging
import SpaceLink.Proofs.Aos.Stored
import SpaceLink.Proofs.Aos.Completion

/-!
# AOS builders in memory

`Builder.staged` is what a builder looks like in memory. Created for lengths that are words, it does
what the builder does: each step (`StagedBuilder.perform_agrees`) and the building of the frame
(`StagedBuilder.build_agrees`).
-/

namespace SpaceLink.Aos

namespace Builder

/-- What the buffer has before the security header: place for the primary header and its check, and
the insert zone. -/
def headerRegion (b : Builder) : Bytes :=
  zeros headerLength ++
    (zeros (if b.config.fhecPresent then fhecLength else 0) ++ b.insertZone.region)

def staged (b : Builder) : StagedBuilder where
  header := b.header
  fhecPresent := b.config.fhecPresent
  insertZoneLength := b.insertZone.length
  insertZoneSet := b.insertZone.content?.isSome
  userDataType := b.config.userDataType
  pointer? := b.pointer?
  securityHeaderLength := b.config.securityHeaderLength
  securityTrailerLength := b.config.securityTrailerLength
  staging := b.draft.staged b.headerRegion (zeros (pduHeaderOf b.config.userDataType))

theorem Obeys.length_headerRegion {b : Builder} {config : Config} {room : Nat} {t : Told}
    (h : b.Obeys config room t) : b.headerRegion.length = config.overhead.headers := by
  rw [headerRegion, List.length_append, List.length_append, length_zeros, length_zeros,
    h.insertZone.length_region, h.agreed, ← Nat.add_assoc]
  rfl

/-- How many bytes a step that adds data leaves over. -/
def left? (b : Builder) : Step → Option Nat
  | .addData d => some (b.draft.leftover d)
  | _ => none

instance : FrameBuilder Builder Step Frame where
  apply := apply
  addData := .addData
  data := Step.data
  draft := draft
  build := build
  left? := left?
  left?_addData _ _ := rfl
  exists_addData _ _ := ⟨_, rfl⟩
  data_of_error {_ s _} h := by
    cases s with
    | addData d => cases h
    | _ => rfl

end Builder

namespace StagedBuilder

variable (a : Arithmetic)

theorem create_agrees {length : Nat} {config : Config} (hlength : length < wordSize)
    (hwrapping : a = .wrapping →
      config.overhead.total + pduHeaderOf config.userDataType < wordSize) :
    (create a length config).Agrees
      (maxBytes < config.overhead.total + pduHeaderOf config.userDataType ∨ maxBytes < length)
      (fun m b => length ≤ maxBytes ∧ m = b.staged) (Builder.create length config) := by
  have hword := two_mul_maxBytes
  have hheaders : headerLength + (if config.fhecPresent then fhecLength else 0) +
      config.insertZoneLength ≤ config.overhead.total := by
    rw [Overhead.total, Overhead.leading]
    exact Nat.le_trans (Nat.le_add_right _ _) (Nat.le_add_right _ _)
  refine .bind_add (fun h => by have := hwrapping h; omega) (fun h => .inl (by omega)) fun _ => ?_
  have hcreate := Draft.create_agrees a config.overhead _ hlength hwrapping id
  refine hcreate.bind fun s draft _ hs => .ok ⟨hs.1, ?_⟩
  have hregion : zeros config.overhead.headers =
      zeros headerLength ++ (zeros (if config.fhecPresent then fhecLength else 0) ++
        (Part.declare config.insertZoneLength).region) := by
    rw [Part.region_declare, zeros_append, zeros_append, ← Nat.add_assoc]
    rfl
  have hset : decide (config.insertZoneLength = 0) =
      (Part.declare config.insertZoneLength).content?.isSome :=
    (Part.isSome_declare _).symm
  rw [hs.2, hregion, hset]
  rfl

variable {b : Builder} {config : Config} {room : Nat} {t : Builder.Told}

/-- What is done to the draft is done to the frame. -/
theorem onStaging_agrees {α : Type} {c : Change Staging α} {answer : α}
    {r : Except Error Draft} (f : α → Option Nat)
    (h : Change.Agrees (fun s draft => s = draft.staged b.headerRegion
        (zeros (pduHeaderOf b.config.userDataType)))
      b.staged.staging answer (c.on b.staged.staging) r) :
    Change.Agrees (fun m b => m = b.staged) b.staged (f answer)
      ((do return f (← onStaging c)).on b.staged) (do return { b with draft := ← r }) :=
  h.within (fun draft => { b with draft }) rfl fun s draft hs => by rw [hs]; rfl

theorem setPointer_agrees (b : Builder) (type : UserDataType) (field : Field) (pointer max : Nat) :
    Change.Agrees (fun m b => m = b.staged) b.staged none
      ((setPointer type field pointer max).on b.staged)
      (do b.require type; checkRange field pointer max; return { b with pointer? := some pointer }) := by
  rw [setPointer, Change.on_get_bind, Builder.require]
  by_cases htype : b.config.userDataType = type
  · have hstaged : ¬b.staged.userDataType ≠ type := not_not_intro htype
    rw [if_pos htype, if_neg hstaged]
    exact .bind_lift fun _ _ => .ok rfl
  · have hstaged : b.staged.userDataType ≠ type := htype
    rw [if_neg htype, if_pos hstaged]
    exact .error _

/-- The insert zone is the end of what is before the security header. -/
theorem setInsertZone_agrees (h : b.Obeys config room t) (d : Bytes)
    (hc : b.draft.extent b.headerRegion (zeros (pduHeaderOf b.config.userDataType)) < wordSize) :
    Change.Agrees (fun m b => m = b.staged) b.staged none
      ((do setInsertZone a d; return none : Change StagedBuilder (Option Nat)).on b.staged)
      (b.apply (.insertZone d)) := by
  rw [Builder.apply, setInsertZone, bind_assoc, Change.on_get_bind, Part.set]
  simp only [bind_assoc]
  refine .bind_lift fun _ hd => ?_
  have hd : b.insertZone.length = d.length := checkLength_eq_ok_iff.mp hd
  let before := zeros headerLength ++ zeros (if b.config.fhecPresent then fhecLength else 0)
  have hlength := h.insertZone.length_region.trans h.insertZone.length.symm
  have hregion : b.headerRegion = before ++ b.insertZone.region := (List.append_assoc ..).symm
  have hend : b.staged.staging.zones.securityHeaderStart = before.length + d.length := by
    show b.headerRegion.length = _
    rw [hregion, List.length_append, hlength, hd]
  have hstart : a.sub b.staged.staging.zones.securityHeaderStart b.staged.insertZoneLength =
      some before.length := by
    show a.sub _ b.insertZone.length = _
    rw [hend, hd, a.sub_of_le (Nat.le_add_left _ _), Nat.add_sub_cancel]
  have hword : before.length + d.length < wordSize := by
    refine Nat.lt_of_le_of_lt (Nat.le_trans ?_ (b.draft.length_headers_le_extent _ _)) hc
    exact Nat.le_of_eq hend.symm
  have hwrite : b.staged.staging.write before.length (before.length + d.length) d =
      some (b.draft.staged (before ++ (d ++ [])) (zeros (pduHeaderOf b.config.userDataType))) :=
    b.draft.staged_writeHeaders before b.insertZone.region [] _
      (by rw [List.append_nil]; exact hregion) rfl rfl (hlength.trans hd)
  rw [hstart, Change.on_some_bind, a.add_of_lt hword, Change.on_some_bind, hwrite,
    Change.on_some_bind]
  refine .ok ?_
  rw [List.append_nil, List.append_assoc]
  rfl

theorem perform_agrees (h : b.Obeys config room t)
    (hc : config.overhead.total + pduHeaderOf config.userDataType + room ≤ maxBytes)
    (s : Builder.Step) :
    Change.Agrees (fun m b => m = b.staged) b.staged (b.left? s) ((perform a s).on b.staged)
      (b.apply s) := by
  have hextent : b.draft.extent b.headerRegion (zeros (pduHeaderOf b.config.userDataType)) <
      wordSize := by
    have hword := two_mul_maxBytes
    rw [h.draft.extent_eq h.length_headerRegion, length_zeros, h.userDataType]
    omega
  cases s with
  | scid n | vcid n | vcFrameCount n | vcFrameCountCycle n => exact .guarded rfl
  | replay v | vcFrameCountUsage v => exact .guarded rfl
  | firstHeaderPointer n => exact setPointer_agrees b ..
  | bitstreamDataPointer n => exact setPointer_agrees b ..
  | idle => exact .ok rfl
  | insertZone d => exact setInsertZone_agrees a h d hextent
  | ocf d => exact onStaging_agrees (fun _ => none) (h.draft.staged_setOcf a d hextent)
  | securityHeader d => exact onStaging_agrees (fun _ => none) (h.draft.staged_setSecurityHeader a d)
  | securityTrailer d =>
    exact onStaging_agrees (fun _ => none) (h.draft.staged_setSecurityTrailer a d)
  | addData d => exact onStaging_agrees some (h.draft.staged_addData a d hextent)

/-- The header of the data field is written in one piece. -/
theorem writePduHeader_agrees {draft : Draft} {o : Overhead} {r : Request} {headers header : Bytes}
    {stops : Prop} (h : draft.Answers o room r) (hlength : header.length = pduHeaderLength)
    (hc : draft.extent headers (zeros pduHeaderLength) < wordSize) :
    Program.Agrees stops (fun s header => s = draft.staged headers header)
      (do
        let s := draft.staged headers (zeros pduHeaderLength)
        s.write s.zones.dataFieldStart (← a.add s.zones.dataFieldStart pduHeaderLength) header)
      (.ok header) := by
  have hend := draft.dataFieldStart_le_extent headers (zeros pduHeaderLength)
  rw [length_zeros] at hend
  dsimp only
  rw [a.add_of_lt (Nat.lt_of_le_of_lt hend hc), some_bind, ← hlength,
    h.staged_writeReserved (length_zeros _)]
  exact .ok rfl

theorem writePointer_agrees (h : b.Obeys config room t) {headers : Bytes} {stops : Prop}
    (hc : b.draft.extent headers (zeros (pduHeaderOf b.config.userDataType)) < wordSize) :
    (b.staged.writePointer a (b.draft.staged headers
        (zeros (pduHeaderOf b.config.userDataType)))).Agrees stops
      (fun s header => s = b.draft.staged headers header) b.pduHeader := by
  have hfor : b.staged.userDataType = b.config.userDataType := rfl
  have hpointer : b.staged.pointer? = b.pointer? := rfl
  rw [Builder.pduHeader, writePointer, hfor, hpointer]
  cases htype : b.config.userDataType with
  | vca | idle => exact .ok rfl
  | mpdu | bpdu =>
    rw [htype] at hc
    cases b.pointer? with
    | none => exact .error _
    | some pointer => exact writePduHeader_agrees a h.draft (Bytes.length_ofNatBE _ _) hc

theorem writeFhec_eq (b : Builder) (insertZone reserved : Bytes) :
    b.staged.writeFhec (b.draft.staged (b.header.encode ++
        (zeros (if b.config.fhecPresent then fhecLength else 0) ++ insertZone)) reserved) =
      some (b.draft.staged (b.header.encode ++ (b.fhec ++ insertZone)) reserved) := by
  rw [writeFhec, Builder.fhec]
  show (if b.config.fhecPresent then _ else _) = _
  cases hp : b.config.fhecPresent with
  | false => rfl
  | true =>
    have hlength : b.header.encode.length = headerLength := Header.length_encode _
    have hbuffer : (b.draft.staged (b.header.encode ++ (zeros fhecLength ++ insertZone))
        reserved).buffer = b.header.encode ++ (zeros fhecLength ++ insertZone ++
          (b.draft.securityHeader.region ++ (reserved ++ (b.draft.userData ++
            zeros b.draft.free))) ++ b.draft.trailing) := by
      simp only [Draft.staged, Draft.leading, List.append_assoc]
    have hheader : Bytes.between? 0 headerLength (b.draft.staged (b.header.encode ++
        (zeros fhecLength ++ insertZone)) reserved).buffer = some b.header.encode := by
      rw [hbuffer, ← hlength, Bytes.between?_of_le (Nat.zero_le _)
        (by rw [List.length_append]; exact Nat.le_add_right _ _), Bytes.between, List.take_left]
      rfl
    have hcheck : (b.header.checkBytes true).length = fhecLength := Header.length_checkBytes _ _
    have hwrite := b.draft.staged_writeHeaders b.header.encode (zeros fhecLength) insertZone reserved
      rfl hlength.symm (congrArg (headerLength + ·) hcheck.symm) (by rw [length_zeros, hcheck])
    rw [if_pos rfl, if_pos rfl, hheader]
    simp only [Option.bind_eq_bind, Option.bind_some, Header.fhec?_encode, hwrite,
      Option.getD_some, if_true]

/-- How the built frame is read back. -/
theorem config_eq (h : b.Obeys config room t) (headers reserved : Bytes) :
    b.config = {
      fhecPresent := b.staged.fhecPresent
      insertZoneLength := b.staged.insertZoneLength
      userDataType := b.staged.userDataType
      ocfPresent := (b.draft.staged headers reserved).zones.ocfStart?.isSome
      fecfPresent := (b.draft.staged headers reserved).zones.fecfPresent
      securityHeaderLength := b.staged.securityHeaderLength
      securityTrailerLength := b.staged.securityTrailerLength } := by
  have hocf : (b.draft.staged headers reserved).zones.ocfStart?.isSome = config.ocfPresent := by
    have hpresent := congrArg Overhead.ocfPresent h.draft.overhead_eq
    rw [Draft.staged_ocfStart?, show b.draft.ocf?.isSome = config.ocfPresent from hpresent]
    cases config.ocfPresent <;> rfl
  have hfecf : (b.draft.staged headers reserved).zones.fecfPresent = config.fecfPresent :=
    h.draft.fecfPresent
  have hinsertZone : b.staged.insertZoneLength = config.insertZoneLength := h.insertZone.length
  rw [hocf, hfecf, hinsertZone]
  simp only [Builder.staged, h.agreed]

theorem build_agrees (h : b.Obeys config room t)
    (hc : config.overhead.total + pduHeaderOf config.userDataType + room ≤ maxBytes)
    (hbits : config.userDataType = .bpdu → 8 * room < wordSize) :
    (build a b.staged).Agrees False (fun s f => s = f.stored) b.build := by
  have hword := two_mul_maxBytes
  refine (h.draft.staged_checkComplete a).bind fun _ contents hfinish _ => ?_
  refine Part.get_agrees _ fun insertZone hinsertZone => ?_
  obtain ⟨hfits, -, hroom, -⟩ := h.draft.finish hfinish
  let fhec := zeros (if b.config.fhecPresent then fhecLength else 0)
  have hregion : b.headerRegion = zeros headerLength ++ (fhec ++ insertZone) := by
    rw [Builder.headerRegion, Part.region, Part.get_eq_ok_iff.mp hinsertZone]
    rfl
  have hextent : b.draft.extent (b.header.encode ++ (fhec ++ insertZone))
      (zeros (pduHeaderOf b.config.userDataType)) < wordSize := by
    have hheaders := h.length_headerRegion
    rw [hregion, List.length_append, length_zeros, ← b.header.length_encode,
      ← List.length_append] at hheaders
    rw [h.draft.extent_eq hheaders, length_zeros, h.userDataType]
    omega
  have hwrite : b.staged.staging.write 0 headerLength b.staged.header.encode =
      some (b.draft.staged (b.header.encode ++ (fhec ++ insertZone))
        (zeros (pduHeaderOf b.config.userDataType))) :=
    b.draft.staged_writeHeaders [] (zeros headerLength) _ _ hregion rfl
      (by rw [Header.length_encode, Nat.zero_add]) (by rw [Header.length_encode, length_zeros])
  rw [hwrite, some_bind]
  refine (writePointer_agrees a h hextent).bind fun s header hheader hs => ?_
  rw [hs, writeFhec_eq, some_bind, Draft.staged_finish a _ _ hfinish, some_bind, ← config_eq h,
    ← List.append_assoc]
  have hlength : (contents.toBytes (b.header.encode ++ b.fhec ++ insertZone) header).length =
      config.overhead.total + pduHeaderOf config.userDataType + room := by
    rw [hfits.length_toBytes (h.length_headers (h.insertZone.get hinsertZone).2), hroom,
      (h.pduHeader hheader).1]
  have hminimum : b.config.minimumLength = config.overhead.total := by
    rw [← b.config.total_overhead, h.agreed]
    rfl
  have hwords : b.config.InWords
      (contents.toBytes (b.header.encode ++ b.fhec ++ insertZone) header).length := by
    rw [Config.InWords, hminimum, hlength, h.userDataType]
    refine ⟨by omega, fun htype => ?_⟩
    have hpdu : pduHeaderOf config.userDataType = 2 := by rw [htype]; rfl
    have hbits := hbits htype
    omega
  exact (StoredFrame.decode_agrees a (Nat.le_trans (Nat.le_of_eq hlength) hc) fun _ => hwords).of_not
    (not_not_intro hwords)

theorem implements (h : b.Obeys config room t)
    (hc : config.overhead.total + pduHeaderOf config.userDataType + room ≤ maxBytes)
    (hbits : config.userDataType = .bpdu → 8 * room < wordSize) :
    (machine a).Implements Builder.staged Frame.stored b where
  perform := perform_agrees a h hc
  free := h.draft.staged_free a
  build := build_agrees a h hc hbits

/-- The machine follows every builder of a frame that memory holds, if the bits of its bitstream can
be counted in words. -/
theorem follows {config : Config} {room : Nat}
    (hc : config.overhead.total + pduHeaderOf config.userDataType + room ≤ maxBytes)
    (hbits : config.userDataType = .bpdu → 8 * room < wordSize) :
    (machine a).Follows Builder.staged Frame.stored fun taken b =>
      b.Obeys config room (Builder.told config.userDataType taken) where
  implements _ _ h := implements a h hc hbits
  keeps taken _ s _ h hs := Builder.told_concat config.userDataType taken s ▸ h.apply hs

/-- What an AOS builder does is determined by the steps that have been accepted. -/
theorem determined {length : Nat} {config : Config} {m : StagedBuilder}
    (hlength : length < wordSize)
    (hwrapping : a = .wrapping →
      config.overhead.total + pduHeaderOf config.userDataType < wordSize)
    (hm : (create a length config).run = some (.ok m)) :
    let capacity := length - config.overhead.total - pduHeaderOf config.userDataType
    (config.userDataType = .bpdu → 8 * capacity < wordSize) →
    (machine a).Determined .addData Builder.Step.data m capacity fun taken =>
      Builder.faults config capacity (Builder.told config.userDataType taken) := by
  intro capacity hbits
  obtain ⟨b, hb, hmemory, rfl⟩ := (create_agrees a hlength hwrapping).exists_of_run_ok hm
  obtain ⟨hobeys, hsum⟩ := Builder.Obeys.create hb
  have hfollows : (machine a).Follows Builder.staged Frame.stored fun taken b =>
      b.Obeys config capacity (Builder.told config.userDataType taken) :=
    follows a (by omega) hbits
  refine hfollows.determined
    (fun taken b h => h.draft.free_eq) (fun taken b h => h.build_reportsFirst rfl)
    (fun taken fault hf => ?_) hobeys
  simp only [Builder.faults, Request.faults, Builder.unsetFaults, Builder.pointerFaults,
    List.cons_append, List.nil_append, List.mem_cons, List.not_mem_nil, or_false] at hf
  rcases hf with rfl | rfl | rfl | rfl | rfl | rfl | rfl | rfl | rfl <;> trivial

end StagedBuilder

end SpaceLink.Aos
