import SpaceLink.Tc.Staged
import SpaceLink.Proofs.Machine
import SpaceLink.Proofs.Staging
import SpaceLink.Proofs.Tc.Stored
import SpaceLink.Proofs.Tc.Completion

/-!
# TC builders in memory

`Builder.staged` is what a builder looks like in memory. Created for lengths that are words, it does
what the builder does: each step (`StagedBuilder.perform_agrees`) and the building of the frame
(`StagedBuilder.build_agrees`). Frames are so short that no other length matters.
-/

namespace SpaceLink.Tc

theorem maxLength_le_maxBytes : maxLength ≤ maxBytes := by decide

namespace Builder

/-- What the buffer has before the security header until the frame is built. -/
def headerRegion (b : Builder) : Bytes :=
  zeros headerLength ++ zeros (if b.config.segmented then SegmentHeader.length else 0)

def staged (b : Builder) : StagedBuilder where
  header := b.header
  segmented := b.config.segmented
  segmentHeader? := b.segmentHeader?
  securityHeaderLength := b.config.securityHeaderLength
  securityTrailerLength := b.config.securityTrailerLength
  staging := b.draft.staged b.headerRegion []

theorem Obeys.length_headerRegion {b : Builder} {plan : Plan} {t : Told} (h : b.Obeys plan t) :
    b.headerRegion.length = plan.config.dataOverhead.headers := by
  rw [headerRegion, List.length_append, length_zeros, length_zeros, h.agreed]
  rfl

/-- How many bytes a step that adds data leaves over. -/
def left? (b : Builder) : Step → Option Nat
  | .addData d => some (b.draft.leftover d)
  | _ => none

instance : FrameBuilder Builder Step Frame where
  apply := apply
  addData := .addData
  data := Step.data
  draft := draft
  build := build
  left? := left?
  left?_addData _ _ := rfl
  exists_addData _ _ := ⟨_, rfl⟩
  data_of_error {_ s _} h := by
    cases s with
    | addData d => cases h
    | _ => rfl

end Builder

namespace StagedBuilder

variable (a : Arithmetic)

theorem create_agrees {length : Nat} {config : Config}
    (hwrapping : a = .wrapping → config.dataOverhead.total < wordSize) :
    (create a length config).Agrees (maxBytes < config.dataOverhead.total)
      (fun m b => m = b.staged) (Builder.create length config) := by
  refine .bind_lift fun _ hmax => ?_
  have hlength := Nat.le_trans (checkRange_eq_ok_iff.mp hmax) maxLength_le_maxBytes
  have hword := two_mul_maxBytes
  refine (Draft.create_agrees a config.dataOverhead 0 (by omega) hwrapping
    fun h => h.resolve_right (Nat.not_lt.mpr hlength)).bind fun s draft _ hs => .ok ?_
  have hregion : zeros config.dataOverhead.headers = zeros headerLength ++
      zeros (if config.segmented then SegmentHeader.length else 0) := (zeros_append _ _).symm
  rw [hs.2, hregion]
  rfl

variable {b : Builder} {plan : Builder.Plan} {t : Builder.Told}

/-- What is done to the draft is done to the frame. -/
theorem onStaging_agrees {α : Type} {c : Change Staging α} {answer : α} {r : Except Error Draft}
    (f : α → Option Nat)
    (h : Change.Agrees (fun s draft => s = draft.staged b.headerRegion []) b.staged.staging answer
      (c.on b.staged.staging) r) :
    Change.Agrees (fun m b => m = b.staged) b.staged (f answer)
      ((do return f (← onStaging c)).on b.staged) (do return { b with draft := ← r }) :=
  h.within (fun draft => { b with draft }) rfl fun s draft hs => by rw [hs]; rfl

theorem setSegmentHeader_agrees (b : Builder) (sequenceFlag : SequenceFlag) (mapId : Nat) :
    Change.Agrees (fun m b => m = b.staged) b.staged none
      ((setSegmentHeader sequenceFlag mapId).on b.staged)
      (b.apply (.segmentHeader sequenceFlag mapId)) := by
  rw [setSegmentHeader, Change.on_get_bind, Builder.apply]
  show Change.Agrees _ _ _ ((if b.config.segmented then _ else _ : Change _ _).on _) _
  split
  · exact .bind_lift fun _ _ => .ok rfl
  · exact .error _

theorem extent_lt (h : b.Obeys plan t) (hp : plan.Sound) {headers : Bytes}
    (hheaders : headers.length = plan.config.dataOverhead.headers) :
    b.draft.extent headers [] < wordSize := by
  have hlength := Nat.le_trans hp.frameLength_le maxLength_le_maxBytes
  have hword := two_mul_maxBytes
  have hframe := hp.frameLength
  rw [h.draft.extent_eq hheaders, List.length_nil]
  omega

theorem perform_agrees (h : b.Obeys plan t) (hp : plan.Sound) (s : Builder.Step) :
    Change.Agrees (fun m b => m = b.staged) b.staged (b.left? s) ((perform a s).on b.staged)
      (b.apply s) := by
  cases s with
  | scid n | vcid n => exact .guarded rfl
  | frameSequenceNumber n | bypass v => exact .guarded rfl
  | segmentHeader sequenceFlag mapId => exact setSegmentHeader_agrees b sequenceFlag mapId
  | securityHeader d => exact onStaging_agrees (fun _ => none) (h.draft.staged_setSecurityHeader a d)
  | securityTrailer d =>
    exact onStaging_agrees (fun _ => none) (h.draft.staged_setSecurityTrailer a d)
  | addData d =>
    exact onStaging_agrees some
      (h.draft.staged_addData a d (extent_lt h hp h.length_headerRegion))

/-- The frame for a command is created and filled. -/
theorem ofCommand_agrees (command : ControlCommand) (fecfPresent : Bool) :
    (ofCommand a command fecfPresent).Agrees False (fun m b => m = b.staged)
      (Builder.ofCommand command fecfPresent) := by
  have htotal : ({ fecfPresent } : Config).dataOverhead.total ≤ maxBytes := by
    cases fecfPresent <;> decide
  have hword := two_mul_maxBytes
  refine ((create_agrees a fun _ => by omega).of_not (Nat.not_lt.mpr htotal)).bind
    fun m b hcreate hm => ?_
  obtain ⟨hobeys, hsound⟩ := Builder.Obeys.create hcreate
  have hextent := extent_lt hobeys hsound hobeys.length_headerRegion
  rw [hm, show b.staged.staging = b.draft.staged b.headerRegion [] from rfl,
    hobeys.draft.on_addData a command.encode hextent]
  exact .ok rfl

/-- The segment header is written in one piece. -/
theorem writeSegmentHeader_agrees (b : Builder) {stops : Prop} :
    (b.staged.writeSegmentHeader (b.draft.staged (b.header.encode ++
        zeros (if b.config.segmented then SegmentHeader.length else 0)) [])).Agrees stops
      (fun s segment => s = b.draft.staged (b.header.encode ++ segment) []) b.segmentHeader := by
  have hsegmented : b.staged.segmented = b.config.segmented := rfl
  have hsegmentHeader : b.staged.segmentHeader? = b.segmentHeader? := rfl
  rw [Builder.segmentHeader, writeSegmentHeader, hsegmented, hsegmentHeader]
  cases b.config.segmented with
  | false => exact .ok rfl
  | true =>
    rw [if_pos rfl, if_pos rfl, if_pos rfl]
    cases b.segmentHeader? with
    | none => exact .error _
    | some h =>
      have hwrite : (b.draft.staged (b.header.encode ++ zeros SegmentHeader.length) []).write
          headerLength (headerLength + SegmentHeader.length) [h.encode] =
            some (b.draft.staged (b.header.encode ++ ([h.encode] ++ [])) []) :=
        b.draft.staged_writeHeaders b.header.encode (zeros SegmentHeader.length) [] []
          (by rw [List.append_nil]) b.header.length_encode.symm rfl rfl
      dsimp only
      rw [hwrite]
      exact .ok rfl

/-- What decoding finds in the bytes is what the builder was created for. -/
theorem minimumLength_eq (h : b.Obeys plan t) (hp : plan.Sound) (contents : Contents)
    (segmentBytes : Bytes) :
    minimumLength (contents.toBytes (b.header.encode ++ segmentBytes) []) b.config =
      plan.config.dataOverhead.total := by
  have hheader := h.decode_header hp contents segmentBytes
  have hlength : 5 ≤ (contents.toBytes (b.header.encode ++ segmentBytes) []).length := by
    obtain ⟨rest, hrest⟩ := contents.toBytes_eq_append (b.header.encode ++ segmentBytes) []
    rw [hrest, List.length_append, List.length_append, Header.length_encode, headerLength]
    omega
  obtain ⟨header, hdecode, hcommand, -⟩ := Header.exists_decode hlength
  cases hdecode.symm.trans hheader
  rw [← total_overheadIn b.config hcommand, h.agreed]
  exact congrArg Overhead.total (h.configIn hp).2

theorem build_agrees (h : b.Obeys plan t) (hp : plan.Sound) :
    (build a b.staged).Agrees False (fun s f => s = f.stored) b.build := by
  refine (h.draft.staged_checkComplete a).bind fun _ contents hfinish _ => ?_
  have hwrite : b.staged.staging.write 0 headerLength b.staged.header.encode =
      some (b.draft.staged (b.header.encode ++
        zeros (if b.config.segmented then SegmentHeader.length else 0)) []) :=
    b.draft.staged_writeHeaders [] (zeros headerLength) _ [] rfl rfl
      (by rw [Header.length_encode, Nat.zero_add]) (by rw [Header.length_encode, length_zeros])
  have hconfig : b.config = {
      segmented := b.config.segmented
      fecfPresent := b.draft.fecfPresent
      securityHeaderLength := b.config.securityHeaderLength
      securityTrailerLength := b.config.securityTrailerLength } := by
    rw [h.agreed, h.draft.fecfPresent]
    rfl
  rw [hwrite, some_bind]
  refine (writeSegmentHeader_agrees b).bind fun s segmentBytes hsegment hs => ?_
  rw [hs, Draft.staged_finish a _ _ hfinish, some_bind]
  have hminimum := minimumLength_eq h hp contents segmentBytes
  have hlength := Nat.le_trans hp.frameLength_le maxLength_le_maxBytes
  have hframe := hp.frameLength
  have hstorable : (contents.toBytes (b.header.encode ++ segmentBytes) []).Storable := by
    rw [Bytes.Storable, h.length_toBytes hp hfinish hsegment]
    exact hlength
  have hword : minimumLength (contents.toBytes (b.header.encode ++ segmentBytes) []) b.config <
      wordSize := by
    have hword := two_mul_maxBytes
    rw [hminimum]
    omega
  refine Eq.subst (motive := fun c => Program.Agrees _ _ (StoredFrame.decode a _ c) _) hconfig ?_
  exact (StoredFrame.decode_agrees a hstorable fun _ => hword).of_not (Nat.not_le.mpr hword)

theorem implements (h : b.Obeys plan t) (hp : plan.Sound) :
    (machine a).Implements Builder.staged Frame.stored b where
  perform := perform_agrees a h hp
  free := h.draft.staged_free a
  build := build_agrees a h hp

/-- The machine follows every builder that was asked for a frame that there can be. -/
theorem follows {plan : Builder.Plan} (hp : plan.Sound) :
    (machine a).Follows Builder.staged Frame.stored fun taken b =>
      b.Obeys plan (Builder.told plan taken) where
  implements _ _ h := implements a h hp
  keeps taken _ s _ h hs := Builder.told_concat plan taken s ▸ h.apply hs

/-- What a TC builder for data does is determined by the steps that have been accepted. -/
theorem determined {length : Nat} {config : Config} {m : StagedBuilder}
    (hwrapping : a = .wrapping → config.dataOverhead.total < wordSize)
    (hm : (create a length config).run = some (.ok m)) :
    let plan : Builder.Plan := { frameLength := length, config, command? := none }
    (machine a).Determined .addData Builder.Step.data m plan.room fun taken =>
      Builder.faults plan (Builder.told plan taken) := by
  intro plan
  obtain ⟨b, hb, rfl⟩ := (create_agrees a hwrapping).exists_of_run_ok hm
  obtain ⟨hobeys, hsound⟩ := Builder.Obeys.create hb
  refine (follows a hsound).determined
    (fun taken b h => h.draft.free_eq) (fun taken b h => h.build_reportsFirst hsound)
    (fun taken fault hf => ?_) hobeys
  simp only [Builder.faults, Request.faults, List.cons_append, List.nil_append, List.mem_cons,
    List.not_mem_nil, or_false] at hf
  rcases hf with rfl | rfl | rfl | rfl | rfl <;> trivial

/-- A TC builder for a command has no room, and nothing is ever missing. -/
theorem determined_ofCommand {command : ControlCommand} {fecfPresent : Bool} {m : StagedBuilder}
    (hm : (ofCommand a command fecfPresent).run = some (.ok m)) :
    (machine a).Determined .addData Builder.Step.data m 0 fun _ => [] := by
  obtain ⟨b, hb, rfl⟩ := (ofCommand_agrees a command fecfPresent).exists_of_run_ok hm
  obtain ⟨hobeys, hsound⟩ := Builder.Obeys.ofCommand hb
  let plan := Builder.Plan.ofCommand command fecfPresent
  have hfull (taken : List Builder.Step) (b : Builder)
      (h : b.Obeys plan (Builder.told plan taken)) : b.draft.free = 0 := by
    rw [h.draft.free_eq, Builder.Plan.room_ofCommand, Builder.told]
    dsimp only
    rw [List.length_append]
    exact Nat.sub_eq_zero_of_le (Nat.le_min.mpr ⟨Nat.le_refl _, Nat.le_add_right _ _⟩)
  refine (follows a hsound).determined
    (fun taken b h => (hfull taken b h).trans (Nat.zero_sub _).symm)
    (fun taken b h => (h.build_reportsFirst hsound).congr ?_)
    (fun _ _ h => absurd h List.not_mem_nil) hobeys
  rw [Builder.faults, Request.faults, ← h.draft.free_eq, hfull taken b h]
  rfl

end StagedBuilder

end SpaceLink.Tc
