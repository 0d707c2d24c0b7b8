import Mathlib.Data.List.Induction
import SpaceLink.Proofs.Channel.Placement
import SpaceLink.Proofs.Channel.Run

/-!
# What a channel hands out

Whatever frames arrive, the packets that a channel hands out are disjoint stretches of the packet
zones that it took, in order, and none of them goes across a gap (`packets_placement`). The zones
together are `Channel.stream`. What the channel has in flight is the end of them, and no gap is
inside unless the channel knows it (`Channel.Accounts`).
-/

namespace SpaceLink

namespace Channel

variable {F : Type} [ChannelFrame F]

/-- The packet zone of a frame that the channel takes. -/
def zoneOf (c : Channel) (f : F) : Bytes :=
  if ChannelFrame.vcid f = c.vcid ∧ ChannelFrame.isIdle f = false ∧ (c.process f).result.isOk then
    (ChannelFrame.packetZone f).toOption.getD []
  else []

def stream (c : Channel) : List F → Bytes
  | [] => []
  | f :: fs => c.zoneOf f ++ stream (c.process f).channel fs

/-- At the offset `o` of the stream, between the frames that were taken before and the next one,
missing frames are reported. -/
def GapAt (c : Channel) (fs : List F) (o : Nat) : Prop :=
  ∃ earlier f later, fs = earlier ++ f :: later ∧ ((c.after earlier).process f).reportsGap = true ∧
    (c.stream earlier).length = o

theorem stream_concat (c : Channel) (fs : List F) (f : F) :
    c.stream (fs ++ [f]) = c.stream fs ++ (c.after fs).zoneOf f := by
  induction fs generalizing c with
  | nil => exact List.append_nil _
  | cons g fs ih =>
    rw [List.cons_append, stream, stream, ih, List.append_assoc]
    rfl

theorem gapAt_concat {c : Channel} {fs : List F} {f : F} {o : Nat} :
    c.GapAt (fs ++ [f]) o ↔
      c.GapAt fs o ∨ ((c.after fs).process f).reportsGap = true ∧ (c.stream fs).length = o := by
  constructor
  · rintro ⟨earlier, g, later, hfs, hg, ho⟩
    rcases List.eq_nil_or_concat later with rfl | ⟨later, f', rfl⟩
    · obtain ⟨rfl, hf⟩ := List.append_inj' hfs rfl
      cases hf
      exact .inr ⟨hg, ho⟩
    · rw [List.concat_eq_append, ← List.cons_append, ← List.append_assoc] at hfs
      exact .inl ⟨earlier, g, later, (List.append_inj' hfs rfl).1, hg, ho⟩
  · rintro (⟨earlier, g, later, rfl, hg, ho⟩ | ⟨hg, ho⟩)
    · exact ⟨earlier, g, later ++ [f], by rw [List.append_assoc, List.cons_append], hg, ho⟩
    · exact ⟨fs, f, [], rfl, hg, ho⟩

end Channel

/-- No offset that satisfies `gap` lies strictly inside one of the packets. -/
def Unbroken (gap : Nat → Prop) (us : List Placed) : Prop :=
  ∀ u ∈ us, ∀ o, gap o → ¬(u.start < o ∧ o < u.stop)

theorem Unbroken.nil (gap : Nat → Prop) : Unbroken gap [] :=
  fun _ hu => absurd hu List.not_mem_nil

variable {kind : PacketKind} {F : Type} [ChannelFrame F] {c : Channel} {f : F} {vcid free : Nat}
  {s : Bytes} {gap : Nat → Prop}

/-- What a channel has in flight is the end of the stream `s`, from `free` on. The gaps are before
that, except one at the very end that the channel knows of. -/
structure Channel.Accounts (c : Channel) (kind : PacketKind) (vcid : Nat) (s : Bytes)
    (gap : Nat → Prop) (free : Nat) : Prop where
  vcid : c.vcid = vcid
  mode : c.mode = kind.mode
  le : free ≤ s.length
  suspended : ∀ p ∈ c.inFlight?, p.Suspended kind ∧ p.bytes = s.drop free
  gaps : ∀ o, gap o → o ≤ free ∨ (c.pendingGap = true ∧ o = s.length)

namespace Channel.Accounts

/-- The gaps before the zone of a frame, with what it reports. -/
def gapsBefore (gap : Nat → Prop) (c : Channel) (f : F) (s : Bytes) (o : Nat) : Prop :=
  gap o ∨ (c.process f).reportsGap = true ∧ s.length = o

/-- No frame is missing, so no gap is behind the start of what is in flight. -/
private theorem le_free_of_not_missed (h : c.Accounts kind vcid s gap free)
    (hv : ChannelFrame.vcid f = c.vcid) (hm : c.missed f = false) (o : Nat)
    (ho : gapsBefore gap c f s o) : o ≤ free := by
  obtain ⟨hpend, hgap⟩ := Bool.or_eq_false_iff.mp hm
  rcases ho with ho | ⟨ho, -⟩
  · exact (h.gaps o ho).resolve_right (by simp [hpend])
  · rw [reportsGap_process hv h.mode, hgap] at ho
    cases ho

private theorem le_free_or_eq_length (h : c.Accounts kind vcid s gap free) (o : Nat)
    (ho : gapsBefore gap c f s o) : o ≤ free ∨ o = s.length := by
  rcases ho with ho | ⟨-, ho⟩
  · exact (h.gaps o ho).imp_right And.right
  · exact .inr ho.symm

/-- Before a frame is looked into, the packet in flight is cut off if it has lost a frame. -/
theorem close (h : c.Accounts kind vcid s gap free) (hv : ChannelFrame.vcid f = c.vcid) :
    ∃ us free', us.map (·.packet) = c.cutOff f ∧ Placement kind s free free' us ∧
      free ≤ free' ∧ free' ≤ s.length ∧ Unbroken (gapsBefore gap c f s) us ∧
      (∀ o, gapsBefore gap c f s o → o ≤ free') ∧
      (∀ p ∈ c.continued f, p.Suspended kind) ∧ bytesOf (c.continued f) = s.drop free' := by
  cases hm : c.missed f with
  | false =>
    have hbefore := h.le_free_of_not_missed hv hm
    rw [cutOff_of_not_missed hm, continued_of_not_missed hm]
    cases hin : c.inFlight? with
    | none =>
      exact ⟨[], s.length, rfl, .nil, h.le, Nat.le_refl _, .nil _,
        fun o ho => Nat.le_trans (hbefore o ho) h.le, nofun, List.drop_length.symm⟩
    | some p =>
      obtain ⟨hs, hb⟩ := h.suspended p hin
      refine ⟨[], free, rfl, .nil, Nat.le_refl _, h.le, .nil _, hbefore, fun q hq => ?_, hb⟩
      cases hq
      exact hs
  | true =>
    have hle : ∀ o, gapsBefore gap c f s o → o ≤ s.length := fun o ho =>
      (h.le_free_or_eq_length o ho).elim (Nat.le_trans · h.le) Nat.le_of_eq
    rw [cutOff, if_pos hm, continued, if_pos hm]
    cases hu : c.inFlight?.bind (·.close?) with
    | none =>
      exact ⟨[], s.length, rfl, .nil, h.le, Nat.le_refl _, .nil _, hle, nofun,
        List.drop_length.symm⟩
    | some u =>
      obtain ⟨p, hp, hu⟩ := Option.bind_eq_some_iff.mp hu
      obtain ⟨hs, hb⟩ := h.suspended p hp
      obtain ⟨hsound, hbytes⟩ := hs.sound hu
      rw [hb] at hbytes
      have hpre : u.bytes <+: s.drop free := hbytes ▸ List.prefix_refl _
      have hplace := (Placement.singleton hpre (Nat.le_refl _) hsound).shift
      have hlen : free + u.bytes.length = s.length := by
        rw [hbytes, List.length_drop, Nat.add_sub_cancel' h.le]
      rw [hlen] at hplace
      refine ⟨_, s.length, rfl, hplace, h.le, Nat.le_refl _, fun v hv o ho => ?_, hle, nofun,
        List.drop_length.symm⟩
      -- what is cut off reaches to the end, where the only later gap is
      have hstop : v.stop = s.length := List.mem_singleton.mp hv ▸ hlen
      have hstart : v.start = free := List.mem_singleton.mp hv ▸ Nat.add_zero free
      have := h.le_free_or_eq_length o ho
      omega

/-- A frame that the channel takes: what is in flight is cut off or continued, and what its zone ends
lies behind all gaps. -/
theorem takeZone {zone : Bytes} {start? : Option Nat} (h : c.Accounts kind vcid s gap free)
    (hv : ChannelFrame.vcid f = c.vcid) (hi : ChannelFrame.isIdle f = false)
    (hz : ChannelFrame.packetField f = .ok (zone, start?)) :
    ∃ us free', us.map (·.packet) = (c.process f).packets ∧
      Placement kind (s ++ zone) free free' us ∧ free ≤ free' ∧
      Unbroken (gapsBefore gap c f s) us ∧
      (c.process f).channel.Accounts kind vcid (s ++ zone) (gapsBefore gap c f s) free' := by
  obtain ⟨us, free₁, hus, hplace, hfree, hle, hunbroken, hbefore, hsus, hbytes⟩ := h.close hv
  obtain ⟨hchannel, hpackets, -⟩ := process_zone hv h.mode hi hz
  obtain ⟨vs, m, hvs, hplace', hm, hrest⟩ := advance_placement hsus zone start?
  have hdrop : s.drop free₁ ++ zone = (s ++ zone).drop free₁ :=
    (List.drop_append_of_le_length hle).symm
  rw [hbytes, hdrop] at hplace' hm hrest
  rw [List.length_drop] at hm
  have hfree' : free₁ + m ≤ (s ++ zone).length := by
    rw [List.length_append] at hm ⊢
    omega
  rw [hchannel, hpackets]
  -- first what is cut off, then what ends in the bytes from `free₁` on
  refine ⟨us ++ vs.map (·.shift free₁), free₁ + m, ?_,
    (hplace.extend hle zone).append hplace'.shift hfree (Nat.le_add_right _ _),
    Nat.le_trans hfree (Nat.le_add_right _ _), fun u hu o ho => ?_,
    h.vcid, h.mode, hfree', fun p hp => ?_, fun o ho => .inl ?_⟩
  · rw [List.map_append, map_packet_shift, hus, hvs]
  · rcases List.mem_append.mp hu with hu | hu
    · exact hunbroken u hu o ho
    · have := (hplace'.shift.within u hu).1
      have := hbefore o ho
      omega
  · obtain ⟨hs, hb⟩ := hrest p hp
    rw [List.drop_drop] at hb
    exact ⟨hs, hb⟩
  · exact Nat.le_trans (hbefore o ho) (Nat.le_add_right _ _)

theorem step (h : c.Accounts kind vcid s gap free) (f : F) :
    ∃ us free', us.map (·.packet) = (c.process f).packets ∧
      Placement kind (s ++ c.zoneOf f) free free' us ∧ free ≤ free' ∧
      Unbroken (gapsBefore gap c f s) us ∧
      (c.process f).channel.Accounts kind vcid (s ++ c.zoneOf f) (gapsBefore gap c f s) free' := by
  by_cases hv : ChannelFrame.vcid f = c.vcid
  case neg =>
    obtain ⟨hchannel, hevents⟩ := process_of_vcid_ne hv
    -- a frame of another virtual channel reports no gap
    have hgap : gapsBefore gap c f s = gap := by
      funext o
      simp [gapsBefore, Outcome.reportsGap, hevents]
    rw [zoneOf, if_neg (fun hz => hv hz.1), List.append_nil, hchannel, hgap, Outcome.packets, hevents]
    exact ⟨[], free, rfl, .nil, Nat.le_refl _, .nil _, h⟩
  cases hi : ChannelFrame.isIdle f with
  | true =>
    obtain ⟨hchannel, hpackets, -⟩ := process_idle hv h.mode hi
    rw [zoneOf, if_neg (by simp [hi]), List.append_nil, hchannel, hpackets]
    refine ⟨[], free, rfl, .nil, Nat.le_refl _, .nil _, h.vcid, h.mode, h.le, h.suspended,
      fun o ho => ?_⟩
    rcases ho with ho | ⟨hg, ho⟩
    · rcases h.gaps o ho with ho | ⟨hp, ho⟩
      · exact .inl ho
      · exact .inr ⟨by simp [missed, hp], ho⟩
    · rw [reportsGap_process hv h.mode] at hg
      exact .inr ⟨by simp [missed, hg], ho.symm⟩
  | false =>
    cases hz : ChannelFrame.packetField f with
    | error e =>
      -- the packet in flight is cut off even if the frame cannot be used
      obtain ⟨us, free₁, hus, hplace, hfree, hle, hunbroken, hbefore, hsus, hbytes⟩ := h.close hv
      obtain ⟨hchannel, hpackets, hresult⟩ := process_unusable hv h.mode hi hz
      rw [zoneOf, hresult, if_neg (by simp [Except.isOk, Except.toBool]), List.append_nil, hchannel,
        hpackets]
      exact ⟨us, free₁, hus, hplace, hfree, hunbroken, h.vcid, h.mode, hle,
        fun p hp => ⟨hsus p hp, bytesOf_of_mem hp ▸ hbytes⟩, fun o ho => .inl (hbefore o ho)⟩
    | ok field =>
      obtain ⟨zone, start?⟩ := field
      obtain ⟨-, -, hresult⟩ := process_zone hv h.mode hi hz
      have hzone : c.zoneOf f = zone := by
        rw [zoneOf, if_pos ⟨hv, hi, hresult ▸ rfl⟩, (ChannelFrame.packetField_eq_ok_iff.mp hz).1]
        rfl
      rw [hzone]
      exact h.takeZone hv hi hz

end Channel.Accounts

namespace Channel

/-- Any number of frames. -/
private theorem placement_run (vcid : Nat) (kind : PacketKind) (strict : Bool) (listeners : List Nat)
    (fs : List F) :
    let c := fresh vcid kind strict listeners
    ∃ us free, us.map (·.packet) = c.packets fs ∧ Placement kind (c.stream fs) 0 free us ∧
      Unbroken (c.GapAt fs) us ∧ (c.after fs).Accounts kind vcid (c.stream fs) (c.GapAt fs) free := by
  intro c
  induction fs using List.reverseRecOn with
  | nil =>
    refine ⟨[], 0, rfl, .nil, .nil _, rfl, rfl, Nat.zero_le _, nofun, ?_⟩
    rintro o ⟨earlier, f, later, h, -⟩
    exact absurd h.symm (List.append_ne_nil_of_right_ne_nil _ (List.cons_ne_nil f later))
  | append_singleton fs f ih =>
    obtain ⟨us, free, hus, hplace, hunbroken, haccounts⟩ := ih
    obtain ⟨vs, free', hvs, hplace', hfree, hunbroken', haccounts'⟩ := haccounts.step f
    have hgap : c.GapAt (fs ++ [f]) =
        Accounts.gapsBefore (c.GapAt fs) (c.after fs) f (c.stream fs) :=
      funext fun o => propext gapAt_concat
    rw [packets_concat, stream_concat, after_concat, hgap]
    refine ⟨us ++ vs, free', by rw [List.map_append, hus, hvs],
      (hplace.extend haccounts.le _).append hplace' (Nat.zero_le _) hfree, fun u hu o ho => ?_,
      haccounts'⟩
    rcases List.mem_append.mp hu with hu | hu
    · rcases ho with ho | ⟨-, rfl⟩
      · exact hunbroken u hu o ho
      · -- a gap at the end is behind all packets
        have := (hplace.within u hu).2
        have := haccounts.le
        omega
    · exact hunbroken' u hu o ho

end Channel

/-- The packets that a channel hands out are disjoint stretches of the zones that it took, in order.
None has a gap inside. A packet handed out as complete has the length that it declares, any other
has a complete header and is shorter. -/
theorem packets_placement (vcid : Nat) (kind : PacketKind) (strict : Bool) (listeners : List Nat)
    (frames : List F) :
    let c := Channel.fresh vcid kind strict listeners
    ∃ us, us.map (·.packet) = c.packets frames ∧
      Placement kind (c.stream frames) 0 (c.stream frames).length us ∧
      Unbroken (c.GapAt frames) us := by
  intro c
  obtain ⟨us, free, hus, hplace, hunbroken, haccounts⟩ :=
    Channel.placement_run vcid kind strict listeners frames
  refine ⟨us, hus, ?_, hunbroken⟩
  have := hplace.append .nil (Nat.zero_le _) haccounts.le
  rw [List.append_nil] at this
  exact this

end SpaceLink
