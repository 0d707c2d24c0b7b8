import SpaceLink.Tm.Staged
import SpaceLink.Proofs.Machine
import SpaceLink.Proofs.Staging
import SpaceLink.Proofs.Tm.Stored
import SpaceLink.Proofs.Tm.Completion

/-!
# TM builders in memory

`Builder.staged` is what a builder looks like in memory. Created for lengths that are words, it does
what the builder does.
-/

namespace SpaceLink.Tm

namespace Builder

/-- What the buffer has for a secondary header. -/
def secondaryRegion (b : Builder) : Bytes :=
  match b.secondaryHeader? with
  | some p =>
    match p.content? with
    | some data => secondaryBytes (some data)
    | none => zeros (1 + p.length)
  | none => []

def staged (b : Builder) : StagedBuilder where
  header := b.header
  secondaryHeaderLength := (b.secondaryHeader?.map (·.length)).getD 0
  secondaryHeaderSet := b.secondaryHeader?.all (·.content?.isSome)
  securityHeaderLength := b.config.securityHeaderLength
  securityTrailerLength := b.config.securityTrailerLength
  staging := b.draft.staged (zeros headerLength ++ b.secondaryRegion) []

/-- Once the secondary header is set, the buffer has it. -/
theorem secondaryRegion_eq {b : Builder} {secondary? : Option Bytes}
    (h : Part.get? b.secondaryHeader? .secondaryHeader = .ok secondary?) :
    b.secondaryRegion = secondaryBytes secondary? := by
  rw [secondaryRegion]
  cases hp : b.secondaryHeader? with
  | none =>
    rw [hp] at h
    cases h
    rfl
  | some p =>
    rw [hp] at h
    obtain ⟨d, hd, h⟩ := bind_eq_ok_iff.mp h
    cases h
    dsimp only
    rw [Part.get_eq_ok_iff.mp hd]

theorem Obeys.length_secondaryRegion {b : Builder} {plan : Plan} {room : Nat} {t : Told}
    (h : b.Obeys plan room t) : b.secondaryRegion.length = plan.secondary := by
  have hsecondary := h.secondaryHeader
  rw [secondaryRegion, Plan.secondary]
  cases hp : b.secondaryHeader? with
  | none =>
    rw [hp] at hsecondary
    rw [hsecondary.1]
    rfl
  | some p =>
    rw [hp] at hsecondary
    obtain ⟨hpresent, htold⟩ := hsecondary
    have hregion := htold.length_region
    rw [Part.region] at hregion
    rw [hpresent, if_pos rfl]
    dsimp only
    cases hcontent : p.content? with
    | none => rw [length_zeros, htold.length]
    | some d =>
      rw [hcontent] at hregion
      show (_ :: d).length = _
      rw [List.length_cons, Nat.add_comm]
      exact congrArg (1 + ·) hregion

theorem Obeys.length_headers {b : Builder} {plan : Plan} {room : Nat} {t : Told}
    (h : b.Obeys plan room t) :
    (zeros headerLength ++ b.secondaryRegion).length = plan.overhead.headers := by
  rw [List.length_append, length_zeros, h.length_secondaryRegion]
  rfl

/-- How many bytes a step that adds data leaves over. -/
def left? (b : Builder) : Step → Option Nat
  | .addData d => some (b.draft.leftover d)
  | _ => none

instance : FrameBuilder Builder Step Frame where
  apply := apply
  addData := .addData
  data := Step.data
  draft := draft
  build := build
  left? := left?
  left?_addData _ _ := rfl
  exists_addData _ _ := ⟨_, rfl⟩
  data_of_error {_ s _} h := by
    cases s with
    | addData d => cases h
    | _ => rfl

end Builder

namespace StagedBuilder

variable (a : Arithmetic)

theorem create_agrees {length : Nat} {plan : Builder.Plan} (hlength : length < wordSize)
    (hwrapping : a = .wrapping → plan.overhead.total < wordSize) :
    (create a length plan.secondaryHeaderLength plan.ocfPresent plan.config).Agrees
      (maxBytes < plan.overhead.total ∨ maxBytes < length)
      (fun m b => length ≤ maxBytes ∧ m = b.staged)
      (Builder.create length plan.secondaryHeaderLength plan.ocfPresent plan.config) := by
  refine .bind_lift fun _ _ => ?_
  have hcreate := Draft.create_agrees a plan.overhead 0 hlength hwrapping id
  obtain ⟨secondaryHeaderLength, ocfPresent, config⟩ := plan
  cases secondaryHeaderLength with
  | zero =>
    refine hcreate.bind fun s draft _ hs => .ok ⟨hs.1, ?_⟩
    rw [hs.2]
    rfl
  | succ n =>
    refine hcreate.bind fun s draft _ hs => .ok ⟨hs.1, ?_⟩
    have hheaders : zeros (headerLength + (1 + (n + 1))) =
        zeros headerLength ++ zeros (1 + (n + 1)) := (zeros_append _ _).symm
    rw [hs.2]
    show StagedBuilder.mk _ _ _ _ _ (draft.staged (zeros (headerLength + (1 + (n + 1)))) []) = _
    rw [hheaders]
    rfl

/-- What is done to the draft is done to the frame. -/
theorem onStaging_agrees {α : Type} {b : Builder} {c : Change Staging α} {answer : α}
    {r : Except Error Draft} (f : α → Option Nat)
    (h : Change.Agrees (fun s draft => s = draft.staged (zeros headerLength ++ b.secondaryRegion) [])
      b.staged.staging answer (c.on b.staged.staging) r) :
    Change.Agrees (fun m b => m = b.staged) b.staged (f answer)
      ((do return f (← onStaging c)).on b.staged) (do return { b with draft := ← r }) :=
  h.within (fun draft => { b with draft }) rfl fun s draft hs => by rw [hs]; rfl

/-- The secondary header is written in two pieces. -/
theorem setSecondaryHeader_agrees {b : Builder} {plan : Builder.Plan} {room : Nat}
    {t : Builder.Told} (h : b.Obeys plan room t) (d : Bytes)
    (hc : b.draft.extent (zeros headerLength ++ b.secondaryRegion) [] < wordSize) :
    Change.Agrees (fun m b => m = b.staged) b.staged none
      ((do setSecondaryHeader a d; return none : Change StagedBuilder (Option Nat)).on b.staged)
      (b.apply (.secondaryHeader d)) := by
  have hsecondary := h.secondaryHeader
  have hheaders := h.length_headers
  rw [Builder.apply, setSecondaryHeader, bind_assoc, Change.on_get_bind]
  cases hp : b.secondaryHeader? with
  | none =>
    have hnone : b.staged.secondaryHeaderLength = 0 := by rw [Builder.staged, hp]; rfl
    rw [if_pos hnone]
    exact .error _
  | some p =>
    rw [hp] at hsecondary
    obtain ⟨hpresent, htold⟩ := hsecondary
    have hlength : b.staged.secondaryHeaderLength = p.length := by rw [Builder.staged, hp]; rfl
    have hpos : p.length ≠ 0 := by
      rw [htold.length]
      exact Nat.ne_of_gt (of_decide_eq_true hpresent)
    have hsecondary := h.length_secondaryRegion
    rw [Builder.Plan.secondary, hpresent, if_pos rfl, ← htold.length, Nat.add_comm] at hsecondary
    obtain ⟨x, xs, hregion⟩ := List.exists_cons_of_length_eq_add_one hsecondary
    rw [hregion, List.length_cons] at hsecondary
    rw [hlength, if_neg hpos, Part.set?, Part.set]
    simp only [bind_assoc]
    refine .bind_lift fun _ hd => ?_
    have hd := checkLength_eq_ok_iff.mp hd
    let id := (pack [(2, 0), (6, p.length)]).toUInt8
    have hfirst : b.staged.staging.write headerLength (headerLength + 1) [id] =
        some (b.draft.staged (zeros headerLength ++ ([id] ++ xs)) []) :=
      b.draft.staged_writeHeaders (zeros headerLength) [x] xs [] (by rw [hregion]; rfl)
        (length_zeros _).symm rfl rfl
    have hsecond : (b.draft.staged (zeros headerLength ++ ([id] ++ xs)) []).write
        (headerLength + 1) (headerLength + 1 + d.length) d =
          some (b.draft.staged (zeros headerLength ++ [id] ++ (d ++ [])) []) :=
      b.draft.staged_writeHeaders (zeros headerLength ++ [id]) xs [] []
        (by simp only [List.append_assoc, List.append_nil]) rfl rfl (by omega)
    have hword : headerLength + 1 + d.length < wordSize := by
      refine Nat.lt_of_le_of_lt (Nat.le_trans ?_ (b.draft.length_headers_le_extent _ [])) hc
      rw [hregion, List.length_append, length_zeros, List.length_cons]
      omega
    rw [hfirst, Change.on_some_bind, a.add_of_lt hword, Change.on_some_bind, hsecond,
      Change.on_some_bind]
    refine .ok ?_
    rw [List.append_nil, List.append_assoc]
    simp only [Builder.staged, Builder.secondaryRegion, Builder.secondaryBytes, id, hd, hp]
    rfl

/-- The invariant of the proofs below: the builder has what it was asked for, and memory holds the
frame. -/
theorem perform_agrees {b : Builder} {plan : Builder.Plan} {room : Nat} {t : Builder.Told}
    (h : b.Obeys plan room t) (hc : plan.overhead.total + room ≤ maxBytes)
    (s : Builder.Step) :
    Change.Agrees (fun m b => m = b.staged) b.staged (b.left? s) ((perform a s).on b.staged)
      (b.apply s) := by
  have hextent : b.draft.extent (zeros headerLength ++ b.secondaryRegion) [] < wordSize := by
    rw [h.draft.extent_eq h.length_headers]
    show plan.overhead.total + (0 + room) < wordSize
    have hword := two_mul_maxBytes
    omega
  cases s with
  | scid n | vcid n | segmentLengthId n | firstHeaderPointer n => exact .guarded rfl
  | mcFrameCount n | vcFrameCount n | sync v | packetOrder v | idle => exact .guarded rfl
  | secondaryHeader d => exact setSecondaryHeader_agrees a h d hextent
  | ocf d => exact onStaging_agrees (fun _ => none) (h.draft.staged_setOcf a d hextent)
  | securityHeader d => exact onStaging_agrees (fun _ => none) (h.draft.staged_setSecurityHeader a d)
  | securityTrailer d =>
    exact onStaging_agrees (fun _ => none) (h.draft.staged_setSecurityTrailer a d)
  | addData d => exact onStaging_agrees some (h.draft.staged_addData a d hextent)

/-- What decoding finds in the bytes is what the builder was created for. -/
theorem minimumLength_eq {b : Builder} {plan : Builder.Plan} {room : Nat} {t : Builder.Told}
    (h : b.Obeys plan room t) {secondary? : Option Bytes}
    (hs : Part.get? b.secondaryHeader? .secondaryHeader = .ok secondary?) (rest : Bytes) :
    minimumLength (b.header.encode ++ Builder.secondaryBytes secondary? ++ rest) b.config =
      plan.overhead.total := by
  obtain ⟨hheader, hsecondary⟩ := h.header_encode hs rest
  have hlength : 6 ≤ (b.header.encode ++ Builder.secondaryBytes secondary? ++ rest).length := by
    rw [List.length_append, List.length_append, Header.length_encode, headerLength]
    omega
  obtain ⟨header, hdecode, hocf, hpresent, -⟩ := Header.exists_decode hlength
  cases hdecode.symm.trans hheader
  rw [← b.config.total_of_header hocf hpresent hsecondary, h.agreed, h.ocfPresent]
  rfl

theorem build_agrees {b : Builder} {plan : Builder.Plan} {room : Nat} {t : Builder.Told}
    (h : b.Obeys plan room t) (hc : plan.overhead.total + room ≤ maxBytes) :
    (build a b.staged).Agrees False (fun s f => s = f.stored) b.build := by
  refine (h.draft.staged_checkComplete a).bind fun _ contents hfinish _ => ?_
  refine Part.get?_agrees fun secondary? hsecondary => ?_
  obtain ⟨hfits, -, hroom, -⟩ := h.draft.finish hfinish
  have hregion := Builder.secondaryRegion_eq hsecondary
  have hheaders := h.length_headers
  have hwrite : b.staged.staging.write 0 headerLength b.staged.header.encode =
      some (b.draft.staged (b.header.encode ++ b.secondaryRegion) []) :=
    b.draft.staged_writeHeaders [] (zeros headerLength) _ [] rfl rfl
      (by rw [Header.length_encode, Nat.zero_add]) (by rw [Header.length_encode, length_zeros])
  have hconfig : b.config = {
      fecfPresent := b.draft.fecfPresent
      securityHeaderLength := b.config.securityHeaderLength
      securityTrailerLength := b.config.securityTrailerLength } := by
    rw [h.agreed, h.draft.fecfPresent]
    rfl
  rw [hwrite, some_bind, Draft.staged_finish a _ [] hfinish, some_bind]
  rw [hregion] at hheaders ⊢
  obtain ⟨rest, hrest⟩ :=
    contents.toBytes_eq_append (b.header.encode ++ Builder.secondaryBytes secondary?) []
  have hminimum := minimumLength_eq h hsecondary rest
  rw [← hrest] at hminimum
  have hstorable : (contents.toBytes (b.header.encode ++ Builder.secondaryBytes secondary?)
      []).Storable := by
    rw [Bytes.Storable, hfits.length_toBytes, hroom]
    · exact hc
    · rw [← hheaders, List.length_append, List.length_append, Header.length_encode, length_zeros]
  have hword : minimumLength (contents.toBytes (b.header.encode ++
      Builder.secondaryBytes secondary?) []) b.config < wordSize := by
    have hword := two_mul_maxBytes
    rw [hminimum]
    omega
  have hdecode := StoredFrame.decode_agrees a (c := b.config) hstorable fun _ => hword
  show Program.Agrees _ _ (StoredFrame.decode a _ _) (Frame.decode _ b.config)
  refine Eq.subst (motive := fun c => Program.Agrees _ _ (StoredFrame.decode a _ c) _) hconfig ?_
  exact hdecode.of_not (Nat.not_le.mpr hword)

theorem implements {b : Builder} {plan : Builder.Plan} {room : Nat} {t : Builder.Told}
    (h : b.Obeys plan room t) (hc : plan.overhead.total + room ≤ maxBytes) :
    (machine a).Implements Builder.staged Frame.stored b where
  perform := perform_agrees a h hc
  free := h.draft.staged_free a
  build := build_agrees a h hc

/-- The machine follows every builder of a frame that memory holds. -/
theorem follows {plan : Builder.Plan} {room : Nat}
    (hc : plan.overhead.total + room ≤ maxBytes) :
    (machine a).Follows Builder.staged Frame.stored fun taken b =>
      b.Obeys plan room (Builder.told plan taken) where
  implements _ _ h := implements a h hc
  keeps taken _ s _ h hs := Builder.told_concat plan taken s ▸ h.apply hs

/-- What a TM builder does is determined by the steps that have been accepted. -/
theorem determined {length : Nat} {plan : Builder.Plan} {m : StagedBuilder}
    (hlength : length < wordSize) (hwrapping : a = .wrapping → plan.overhead.total < wordSize)
    (hm : (create a length plan.secondaryHeaderLength plan.ocfPresent plan.config).run =
      some (.ok m)) :
    let capacity := length - plan.overhead.total
    (machine a).Determined .addData Builder.Step.data m capacity fun taken =>
      Builder.faults plan capacity (Builder.told plan taken) := by
  intro capacity
  obtain ⟨b, hb, hmemory, rfl⟩ := (create_agrees a hlength hwrapping).exists_of_run_ok hm
  obtain ⟨hobeys, hsum⟩ := Builder.Obeys.create hb
  have hfollows : (machine a).Follows Builder.staged Frame.stored fun taken b =>
      b.Obeys plan capacity (Builder.told plan taken) := follows a (by omega)
  refine hfollows.determined
    (fun taken b h => h.draft.free_eq) (fun taken b h => h.build_reportsFirst rfl)
    (fun taken fault hf => ?_) hobeys
  simp only [Builder.faults, Request.faults, List.cons_append, List.nil_append, List.mem_cons,
    List.not_mem_nil, or_false] at hf
  rcases hf with rfl | rfl | rfl | rfl | rfl | rfl <;> trivial

end StagedBuilder

end SpaceLink.Tm
