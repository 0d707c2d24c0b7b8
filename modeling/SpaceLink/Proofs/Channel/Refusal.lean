import SpaceLink.Proofs.Channel.Gaps
import SpaceLink.Proofs.Channel.Invariant

/-!
# Frames that a channel refuses

Whether a channel can use a frame of its virtual channel depends on the access mode and the frame
alone. `Tm.Frame.refusal?`, `Aos.Frame.refusal?` and `Tc.Frame.refusal?` say which frames are
refused, and why. Nothing is undone when a frame is refused: `Channel.Refuses` says what is reported
and what has become of the channel. `Channel.pendingGap_iff` says when frames are missing from
before. `Channel.judged` takes all this together.
-/

namespace SpaceLink

/-! ## Which frames are refused -/

/-- Why a frame is refused in an access mode: packets are found only if they are synchronised to
the frame, and there are no bitstreams in TM frames. -/
def Tm.Frame.refusal? (f : Tm.Frame) (mode : AccessMode) : Option Error :=
  if f.isIdle then none
  else match mode with
    | .data => none
    | .bitstream => some (if f.header.sync then .syncFlag else .accessMode .tm)
    | .packet | .encapsulation => if f.header.sync then some .syncFlag else none

/-- Why a frame is refused in an access mode: bitstreams are in B_PDUs and packets in M_PDUs. -/
def Aos.Frame.refusal? (f : Aos.Frame) (mode : AccessMode) : Option Error :=
  if f.isIdle then none
  else match mode with
    | .data => none
    | .bitstream =>
      if f.userDataType = .bpdu then none
      else some (.userDataType (some .bitstreamDataPointer) .bpdu f.userDataType)
    | .packet | .encapsulation =>
      if f.userDataType = .mpdu then none
      else some (.userDataType (some .firstHeaderPointer) .mpdu f.userDataType)

/-- Why a frame is refused in an access mode: there are no bitstreams in TC frames. -/
def Tc.Frame.refusal? (f : Tc.Frame) (mode : AccessMode) : Option Error :=
  if f.isIdle then none
  else match mode with
    | .bitstream => some (.accessMode .tc)
    | .data | .packet | .encapsulation => none

/-- The error that stands in the place of a result. -/
def error? {α : Type} : Except Error α → Option Error
  | .error e => some e
  | .ok _ => none

namespace ChannelFrame

variable {F : Type} [ChannelFrame F]

/-- Why a frame of any kind is refused in an access mode. -/
def refusal? (f : F) (mode : AccessMode) : Option Error :=
  if isIdle f then none
  else match mode with
    | .data => none
    | .bitstream => if isSync f then some .syncFlag else error? (bitstream f)
    | .packet | .encapsulation => error? (packetField f)

theorem refusal?_packets {f : F} (kind : PacketKind) :
    refusal? f kind.mode = if isIdle f then none else error? (packetField f) := by
  cases kind <;> rfl

end ChannelFrame

theorem error?_eq_some_iff {α : Type} {x : Except Error α} {e : Error} :
    error? x = some e ↔ x = .error e := by
  cases x <;> simp [error?]

theorem Tm.Frame.refusal?_eq (f : Tm.Frame) (mode : AccessMode) :
    ChannelFrame.refusal? f mode = f.refusal? mode := by
  have hfirst (hi : f.isIdle = false) :
      error? (ChannelFrame.packetField f) = if f.header.sync then some .syncFlag else none := by
    show error? (do return (f.dataField, ← f.firstPacket)) = _
    rw [firstPacket, hi]
    cases f.header.sync <;> cases f.containsNoPacketStart <;> rfl
  unfold ChannelFrame.refusal? refusal?
  show (if f.isIdle then none else _) = _
  cases hi : f.isIdle with
  | true => rfl
  | false =>
    cases mode with
    | data => rfl
    | bitstream =>
      show (if f.header.sync then _ else _) = some (if f.header.sync then _ else _)
      cases f.header.sync <;> rfl
    | packet => exact hfirst hi
    | encapsulation => exact hfirst hi

/-- The user data types that have a pointer have it in every frame. -/
theorem Aos.Frame.pointerFor_eq {f : Aos.Frame} {required : UserDataType} (field : Field)
    (hr : required = .mpdu ∨ required = .bpdu) :
    (∃ pointer, f.userDataType = required ∧ f.pointerFor required field = .ok pointer) ∨
      f.userDataType ≠ required ∧
        f.pointerFor required field = .error (.userDataType (some field) required f.userDataType) := by
  by_cases ht : f.userDataType = required
  · obtain ⟨pointer, hp⟩ : ∃ pointer, f.pointer? = some pointer := by
      rw [pointer?, ht]
      rcases hr with rfl | rfl <;> exact ⟨_, rfl⟩
    refine .inl ⟨pointer, ht, ?_⟩
    rw [pointerFor, if_pos ht, hp]
  · refine .inr ⟨ht, ?_⟩
    rw [pointerFor, if_neg ht]

theorem Aos.Frame.refusal?_eq (f : Aos.Frame) (mode : AccessMode) :
    ChannelFrame.refusal? f mode = f.refusal? mode := by
  have hpackets (hi : f.isIdle = false) : error? (ChannelFrame.packetField f) =
      if f.userDataType = .mpdu then none
      else some (.userDataType (some .firstHeaderPointer) .mpdu f.userDataType) := by
    show error? (do return (← f.packetZone, ← f.firstPacket)) = _
    rw [packetZone, firstPacket, hi, firstHeaderPointer]
    rcases f.pointerFor_eq .firstHeaderPointer (.inl rfl) with ⟨pointer, ht, hp⟩ | ⟨ht, hp⟩
    · rw [hp, if_pos ht]
      rfl
    · rw [hp, if_neg ht]
      rfl
  have hbitstream : error? (ChannelFrame.bitstream f) =
      if f.userDataType = .bpdu then none
      else some (.userDataType (some .bitstreamDataPointer) .bpdu f.userDataType) := by
    show error? (do return (← f.bitstreamZone, ← f.validBits)) = _
    rw [bitstreamZone, validBits, bitstreamDataPointer]
    rcases f.pointerFor_eq .bitstreamDataPointer (.inr rfl) with ⟨pointer, ht, hp⟩ | ⟨ht, hp⟩
    · rw [hp, if_pos ht]
      show error? (do let bits ← ite _ _ _; return (f.pduZone, bits)) = none
      split
      · rfl
      split <;> rfl
    · rw [hp, if_neg ht]
      rfl
  unfold ChannelFrame.refusal? refusal?
  show (if f.isIdle then none else _) = _
  cases hi : f.isIdle with
  | true => rfl
  | false =>
    cases mode with
    | data => rfl
    | bitstream => exact hbitstream
    | packet => exact hpackets hi
    | encapsulation => exact hpackets hi

theorem Tc.Frame.refusal?_eq (f : Tc.Frame) (mode : AccessMode) :
    ChannelFrame.refusal? f mode = f.refusal? mode := by
  have hpackets (hi : f.isIdle = false) : error? (ChannelFrame.packetField f) = none := by
    show error? (do return (f.dataField, ← f.firstPacket)) = none
    rw [firstPacket, hi]
    cases f.segmentHeader? <;> rfl
  unfold ChannelFrame.refusal? refusal?
  show (if f.isIdle then none else _) = _
  cases hi : f.isIdle with
  | true => rfl
  | false =>
    cases mode with
    | data => rfl
    | bitstream => rfl
    | packet => exact hpackets hi
    | encapsulation => exact hpackets hi

/-! ## What a refusal leaves behind -/

namespace Channel

variable {F : Type} [ChannelFrame F] {c : Channel} {f : F} {kind : PacketKind} {e : Error}

/-- What a channel does with a frame of its virtual channel that it refuses: what it reports beyond
the frame and missing frames, and the channel afterwards. -/
inductive Refuses (c : Channel) (f : F) : List Event → Channel → Prop
  /-- No frames are missing since the last one that was not idle. -/
  | kept {kind : PacketKind} (hm : c.mode = kind.mode) (h : c.missed f = false) :
    Refuses c f [] { c with lastCount? := some (ChannelFrame.frameCount f) }
  /-- Nothing is in flight, or a packet whose length is not known. -/
  | dropped {kind : PacketKind} (hm : c.mode = kind.mode) (h : c.missed f = true)
    (hp : ∀ p ∈ c.inFlight?, p.total? = none) :
    Refuses c f [] { c with
      lastCount? := some (ChannelFrame.frameCount f), inFlight? := none, pendingGap := false }
  | closed {kind : PacketKind} {p : PartialPacket} {t : Nat} (hm : c.mode = kind.mode)
    (h : c.missed f = true) (hp : c.inFlight? = some p) (ht : p.total? = some t) :
    Refuses c f [.packetExtracted kind p.bytes false] { c with
      lastCount? := some (ChannelFrame.frameCount f), inFlight? := none, pendingGap := false }
  | bitstream (hm : c.mode = .bitstream) :
    Refuses c f [] { c with lastCount? := some (ChannelFrame.frameCount f) }

theorem result_processBitstream (c : Channel) (f : F) : (c.processBitstream f).result =
    (ChannelFrame.refusal? f .bitstream).elim (.ok ()) .error := by
  rw [processBitstream, ChannelFrame.refusal?]
  split
  · rfl
  split
  · rfl
  cases ChannelFrame.bitstream f <;> rfl

theorem result_processPackets (c : Channel) (kind : PacketKind) (f : F) (gap : Bool) :
    (c.processPackets kind f gap).result =
      (ChannelFrame.refusal? f kind.mode).elim (.ok ()) .error := by
  rw [processPackets, ChannelFrame.refusal?_packets]
  dsimp only
  split
  · rfl
  cases ChannelFrame.packetField f <;> rfl

theorem result_process (hv : ChannelFrame.vcid f = c.vcid) : (c.process f).result =
    (ChannelFrame.refusal? f c.mode).elim (.ok ()) .error := by
  rw [process, if_neg (not_not_intro hv)]
  dsimp only
  rw [processContents]
  dsimp only
  cases c.mode with
  | data =>
    rw [ChannelFrame.refusal?, ite_self]
    rfl
  | bitstream => exact result_processBitstream _ f
  | packet => exact result_processPackets _ .space f _
  | encapsulation => exact result_processPackets _ .encapsulation f _

theorem result_process_of_vcid_ne (hv : ChannelFrame.vcid f ≠ c.vcid) : (c.process f).result =
    if c.strict then .error (.vcidMismatch c.vcid (ChannelFrame.vcid f)) else .ok () := by
  rw [process, if_pos hv]

/-- What is left of the packet in flight if missing frames cut it off. -/
theorem cutOff_of_inFlight {p : PartialPacket} (h : c.missed f = true) (hp : c.inFlight? = some p) :
    c.cutOff f = (p.total?.map fun _ => { bytes := p.bytes, complete := false }).toList := by
  rw [cutOff, if_pos h, hp, Option.bind_some, PartialPacket.close?]

theorem refuses_cutOff (hm : c.mode = kind.mode) : c.Refuses f
    ((c.cutOff f).map fun packet => .packetExtracted kind packet.bytes packet.complete)
    { c with
      lastCount? := some (ChannelFrame.frameCount f), pendingGap := false
      inFlight? := c.continued f } := by
  cases hmissed : c.missed f with
  | false =>
    have hpending : c.pendingGap = false := (Bool.or_eq_false_iff.mp hmissed).1
    rw [cutOff_of_not_missed hmissed, continued_of_not_missed hmissed, ← hpending]
    exact .kept hm hmissed
  | true =>
    have hcontinued : c.continued f = none := by
      rw [continued, if_pos hmissed]
    rw [hcontinued]
    cases hp : c.inFlight? with
    | none =>
      rw [cutOff, hp, Option.bind_none, Option.toList_none, ite_self]
      exact .dropped hm hmissed fun p hmem => absurd (hp ▸ hmem) (Option.not_mem_none p)
    | some p =>
      rw [cutOff_of_inFlight hmissed hp]
      cases ht : p.total? with
      | none =>
        refine .dropped hm hmissed fun q hq => ?_
        obtain rfl := Option.some.inj (hp.symm.trans hq)
        exact ht
      | some t => exact .closed hm hmissed hp ht

theorem refuses_packets (kind : PacketKind) (hv : ChannelFrame.vcid f = c.vcid)
    (hm : c.mode = kind.mode) (h : ChannelFrame.refusal? f kind.mode = some e) : ∃ closed,
    (c.process f).events = .frameReceived :: ((c.gap? f).toList.map .gapDetected ++ closed) ∧
      c.Refuses f closed (c.process f).channel := by
  rw [ChannelFrame.refusal?_packets] at h
  cases hi : ChannelFrame.isIdle f with
  | true =>
    rw [hi] at h
    cases h
  | false =>
    rw [hi] at h
    obtain ⟨hchannel, hpackets, -⟩ := process_unusable hv hm hi (error?_eq_some_iff.mp h)
    refine ⟨_, events_process hv hm, ?_⟩
    rw [hpackets, hchannel]
    exact refuses_cutOff hm

theorem refuses_bitstream (hv : ChannelFrame.vcid f = c.vcid) (hm : c.mode = .bitstream)
    (h : ChannelFrame.refusal? f .bitstream = some e) : ∃ closed,
    (c.process f).events = .frameReceived :: ((c.gap? f).toList.map .gapDetected ++ closed) ∧
      c.Refuses f closed (c.process f).channel := by
  have hevents (c : Channel) : (c.processBitstream f).events = [] := by
    rw [ChannelFrame.refusal?] at h
    rw [processBitstream]
    split
    · rfl
    split
    · rfl
    rw [if_neg ‹_›, if_neg ‹_›, error?_eq_some_iff] at h
    rw [h]
  refine ⟨[], ?_, ?_⟩
  · rw [process, if_neg (not_not_intro hv)]
    dsimp only
    rw [processContents, hm]
    dsimp only
    rw [hevents]
  · rw [process, if_neg (not_not_intro hv)]
    dsimp only
    rw [processContents_channel (by exact .inr hm)]
    exact .bitstream hm

theorem refuses (hv : ChannelFrame.vcid f = c.vcid)
    (h : ChannelFrame.refusal? f c.mode = some e) : ∃ closed,
    (c.process f).events = .frameReceived :: ((c.gap? f).toList.map .gapDetected ++ closed) ∧
      c.Refuses f closed (c.process f).channel := by
  cases hm : c.mode with
  | data =>
    rw [hm, ChannelFrame.refusal?, ite_self] at h
    cases h
  | bitstream => exact refuses_bitstream hv hm (hm ▸ h)
  | packet => exact refuses_packets .space hv hm (hm ▸ h)
  | encapsulation => exact refuses_packets .encapsulation hv hm (hm ▸ h)

/-! ## Frames missing from before -/

/-- After frames have been missed, the action leaves open when the next frame that is not idle
comes. -/
def Action.Quiet (vcid : Nat) : Action F → Prop
  | .process f => ChannelFrame.vcid f = vcid → ChannelFrame.isIdle f = true
  | .reset => False
  | .withStrict _ | .register _ => True

/-- The action takes an idle frame before which frames are missing. -/
def Action.Misses (c : Channel) : Action F → Prop
  | .process f =>
    ChannelFrame.vcid f = c.vcid ∧ ChannelFrame.isIdle f = true ∧ (c.gap? f).isSome = true
  | .reset | .withStrict _ | .register _ => False

theorem pendingGap_act (hm : c.mode = kind.mode) (a : Action F) :
    (c.act a).pendingGap = true ↔ a.Misses c ∨ c.pendingGap = true ∧ a.Quiet c.vcid := by
  cases a with
  | reset => simp [act, reset, Action.Misses, Action.Quiet]
  | withStrict strict => simp [act, withStrict, Action.Misses, Action.Quiet]
  | register listener => simp [act, register, Action.Misses, Action.Quiet]
  | process f =>
    show (c.process f).channel.pendingGap = true ↔ _
    simp only [Action.Misses, Action.Quiet]
    by_cases hv : ChannelFrame.vcid f = c.vcid
    · cases hi : ChannelFrame.isIdle f with
      | true =>
        rw [(process_idle hv hm hi).1]
        simp only [missed, Bool.or_eq_true, hv, true_and, implies_true, and_true]
        exact or_comm
      | false =>
        have hfalse : (c.process f).channel.pendingGap = false := by
          cases hz : ChannelFrame.packetField f with
          | error e => rw [(process_unusable hv hm hi hz).1]
          | ok field => rw [(process_zone hv hm hi hz).1]
        simp [hfalse, hv]
    · rw [(process_of_vcid_ne hv).1]
      simp [hv]

theorem vcid_act (c : Channel) (a : Action F) : (c.act a).vcid = c.vcid := by
  cases a with
  | process f => exact vcid_process c f
  | reset => rfl
  | withStrict strict => rfl
  | register listener => rfl

theorem vcid_run (c : Channel) (actions : List (Action F)) :
    (actions.foldl act c).vcid = c.vcid := by
  induction actions generalizing c with
  | nil => rfl
  | cons a actions ih => exact (ih _).trans (vcid_act c a)

/-- Missing frames were noticed at an idle frame, after which the channel has not been reset and has
taken no frame but idle ones. -/
def MissedBefore (c : Channel) (actions : List (Action F)) : Prop :=
  ∃ before a later, actions = before ++ a :: later ∧ a.Misses (before.foldl act c) ∧
    ∀ b ∈ later, b.Quiet c.vcid

theorem missedBefore_concat (c : Channel) (actions : List (Action F)) (a : Action F) :
    c.MissedBefore (actions ++ [a]) ↔
      a.Misses (actions.foldl act c) ∨ c.MissedBefore actions ∧ a.Quiet c.vcid := by
  constructor
  · rintro ⟨before, b, later, heq, hb, hlater⟩
    rcases later.eq_nil_or_concat with rfl | ⟨later, a', rfl⟩
    · obtain ⟨rfl, hlast⟩ := List.append_inj' heq rfl
      exact .inl (List.singleton_inj.mp hlast ▸ hb)
    · rw [List.concat_eq_append, ← List.cons_append, ← List.append_assoc] at heq
      obtain ⟨rfl, hlast⟩ := List.append_inj' heq rfl
      rw [List.concat_eq_append, List.forall_mem_append] at hlater
      rw [List.singleton_inj.mp hlast]
      exact .inr ⟨⟨before, b, later, rfl, hb, hlater.1⟩, hlater.2 a' List.mem_cons_self⟩
  · rintro (h | ⟨⟨before, b, later, rfl, hb, hlater⟩, ha⟩)
    · exact ⟨actions, a, [], rfl, h, nofun⟩
    · refine ⟨before, b, later ++ [a], List.append_assoc .., hb, ?_⟩
      exact List.forall_mem_append.mpr ⟨hlater, List.forall_mem_singleton.mpr ha⟩

theorem pendingGap_iff (hc : c.pendingGap = false) (hs : c.Reassembles kind.mode)
    (actions : List (Action F)) :
    (actions.foldl act c).pendingGap = true ↔ c.MissedBefore actions := by
  induction actions using List.reverseRecOn with
  | nil => simp [hc, MissedBefore]
  | append_singleton actions a ih =>
    rw [missedBefore_concat, List.foldl_concat, pendingGap_act (hs.run actions).mode_eq, vcid_run, ih]

/-! ## All together -/

/-- What a channel makes of a frame that its access mode refuses or not. -/
structure Judged (c : Channel) (f : F) (refusal? : Option Error) : Prop where
  foreign : ChannelFrame.vcid f ≠ c.vcid →
    (c.process f).channel = c ∧ (c.process f).events = [] ∧
      (c.process f).result =
        if c.strict then .error (.vcidMismatch c.vcid (ChannelFrame.vcid f)) else .ok ()
  own : ChannelFrame.vcid f = c.vcid → (c.process f).result = refusal?.elim (.ok ()) .error
  refused : ChannelFrame.vcid f = c.vcid → refusal?.isSome → ∃ closed,
    (c.process f).events = .frameReceived :: ((c.gap? f).toList.map .gapDetected ++ closed) ∧
      c.Refuses f closed (c.process f).channel
  /-- Nothing else of the channel matters. -/
  determined : ∀ d : Channel, d.vcid = c.vcid → d.mode = c.mode → d.strict = c.strict →
    (d.process f).result = (c.process f).result

theorem judged_refusal? (c : Channel) (f : F) :
    c.Judged f (ChannelFrame.refusal? f c.mode) where
  foreign hv := ⟨(process_of_vcid_ne hv).1, (process_of_vcid_ne hv).2, result_process_of_vcid_ne hv⟩
  own hv := result_process hv
  refused hv h := by
    obtain ⟨e, he⟩ := Option.isSome_iff_exists.mp h
    exact refuses hv he
  determined d hvcid hmode hstrict := by
    by_cases hv : ChannelFrame.vcid f = c.vcid
    · rw [result_process hv, result_process (hv.trans hvcid.symm), hmode]
    · rw [result_process_of_vcid_ne hv, result_process_of_vcid_ne (hvcid ▸ hv), hstrict, hvcid]

/-- A channel in any state takes a frame of another virtual channel for an error or for nothing, and
refuses those of its own that have nothing for its access mode. A refusal costs at most the packet
that missing frames have already cut off. -/
theorem judged :
    (∀ (c : Channel) (f : Tm.Frame), c.Judged f (f.refusal? c.mode)) ∧
    (∀ (c : Channel) (f : Aos.Frame), c.Judged f (f.refusal? c.mode)) ∧
    (∀ (c : Channel) (f : Tc.Frame), c.Judged f (f.refusal? c.mode)) ∧
    ∀ (F : Type) [ChannelFrame F] (kind : PacketKind) (vcid : Nat) (strict : Bool)
      (listeners : List Nat) (actions : List (Action F)),
      let c := fresh vcid kind strict listeners
      (actions.foldl act c).pendingGap = true ↔ c.MissedBefore actions := by
  refine ⟨fun c f => ?_, fun c f => ?_, fun c f => ?_, fun F _ kind vcid strict listeners => ?_⟩
  · rw [← f.refusal?_eq]
    exact c.judged_refusal? f
  · rw [← f.refusal?_eq]
    exact c.judged_refusal? f
  · rw [← f.refusal?_eq]
    exact c.judged_refusal? f
  · exact pendingGap_iff rfl (.of_none rfl rfl)

end Channel

end SpaceLink
