import Mathlib.Data.List.Induction
import SpaceLink.Proofs.Channel.Reception

/-!
# Losing frames

Space packets are sent in frames (`Transmission`) of which some are lost. As long as not all counts
go by unnoticed (`FewLost`), the channel hands out as complete exactly the packets none of whose
frames is lost, and as cut off only beginnings of the others (`packets_of_received`).

What a channel knows is determined by the last run of consecutive frames that it received
(`LastRun`): it is in the state of one that began with the first frame of that run (`Follows`).
-/

namespace SpaceLink

variable {F : Type} [PacketCarrier F] {vcid n : Nat} {packets zones : List Bytes} {sent : List F}

/-- Space packets that are cut into zones and sent in consecutively numbered frames of a virtual
channel. -/
structure Transmitted (vcid n : Nat) (packets zones : List Bytes) (sent : List F) : Prop where
  declared : ∀ p ∈ packets, 7 ≤ p.length ∧ PacketKind.space.declaredLength? p = some p.length
  cut : zones.flatten = packets.flatten
  sends : Sends ((located packets).map (·.2)) 0 zones sent
  ofChannel : ∀ f ∈ sent, ChannelFrame.vcid f = vcid
  countChecked : ∀ f ∈ sent, ChannelFrame.countChecked f = true
  numbered : Numbered n sent

/-- What a channel has when it began with the frame `first` and has taken all before `next`. -/
def receivedSince (packets : List Bytes) (sent : List F) (first next : Nat) :
    List Bytes × Option PartialPacket :=
  extract .space (Bytes.between (resync .space packets.flatten (offset sent first))
    (offset sent next) packets.flatten)

/-- The packet in flight is the beginning of `q`, which has lost a frame and comes after the
packets `qs`. -/
structure PartialPacket.Stale (packets : List Bytes) (sent : List F) (js : List (Fin sent.length))
    (first : Nat) (qs : List (Bytes × Nat)) (p : PartialPacket) (q : Bytes × Nat) : Prop where
  suspended : p.Suspended .space
  mem : q ∈ located packets
  isPrefix : p.bytes <+: q.1
  torn : Torn sent js q
  start_lt : q.2 < offset sent first
  after : ∀ r ∈ qs, r.2 < q.2

/-- The channel is as if it had begun with the frame `first`, and it has handed out something of
the packets `qs`, which it will not come back to. Only a packet that has lost a frame may still be in
flight besides, until a frame that is not idle arrives. -/
structure Channel.Follows (c : Channel) (vcid : Nat) (packets : List Bytes) (sent : List F)
    (js : List (Fin sent.length)) (first : Nat) (qs : List (Bytes × Nat)) : Prop where
  vcid : c.vcid = vcid
  mode : c.mode = PacketKind.space.mode
  lastCount : c.lastCount? = js.getLast?.map fun i => ChannelFrame.frameCount (sent.get i)
  inFlight : (if c.pendingGap then none else c.inFlight?) =
    (receivedSince packets sent first (upcoming js)).2
  stale : c.pendingGap = true → ∀ p ∈ c.inFlight?, ∃ q, p.Stale packets sent js first qs q
  past : ∀ q ∈ qs, q ∈ located packets ∧
    (q.2 < offset sent first ∨ q.2 + q.1.length ≤ offset sent (upcoming js))

/-- What comes of the frame `j` after the frames `js` is right: the packets that end in it and have
lost nothing, each complete, and beginnings of others. -/
structure Outcome.RightFor (out : Outcome) (vcid : Nat) (packets : List Bytes) (sent : List F)
    (js : List (Fin sent.length)) (first : Nat) (qs : List (Bytes × Nat)) (j : Fin sent.length) :
    Prop where
  result : out.result = .ok ()
  whole : (out.packets.filter (·.complete)).map (·.bytes) = (endingIn packets sent js j).map (·.1)
  follows : ∃ rs, Delivery packets sent (js ++ [j]) rs out.packets ∧
    (∀ q ∈ qs, ∀ r ∈ rs, q.2 < r.2) ∧
    out.channel.Follows vcid packets sent (js ++ [j]) (runStart js first j) (qs ++ rs)

/-- What has been handed out stays behind. -/
theorem Channel.Follows.past_concat {c : Channel} {js : List (Fin sent.length)} {first : Nat}
    {qs : List (Bytes × Nat)} {j : Fin sent.length} (hc : c.Follows vcid packets sent js first qs)
    (hr : LastRun js first) (hj : upcoming js ≤ j) :
    ∀ q ∈ qs, q ∈ located packets ∧ (q.2 < offset sent (runStart js first j) ∨
      q.2 + q.1.length ≤ offset sent j) := by
  intro q hq
  obtain ⟨hmem, hpast⟩ := hc.past q hq
  refine ⟨hmem, hpast.imp (fun h => ?_) fun h => ?_⟩
  · exact Nat.lt_of_lt_of_le h (offset_mono sent (hr.le_runStart hj))
  · exact Nat.le_trans h (offset_mono sent hj)

namespace Transmitted

variable (ht : Transmitted vcid n packets zones sent)
include ht

theorem wholePacket : ∀ p ∈ packets, WholePacket .space p := by
  intro p hp
  have hheader : PacketKind.space.headerLength p ≠ 1 := show 6 ≠ 1 by decide
  exact .of_declaredLength? (ht.declared p hp).2 hheader

theorem ne_nil : ∀ p ∈ packets, p ≠ [] := fun p hp => (ht.wholePacket p hp).ne_nil

theorem slot (j : Fin sent.length) :
    Slot (PacketKind.space.packetStarts packets.flatten) packets.flatten (sent.get j)
      (offset sent j) (offset sent (j + 1)) := by
  have h := ht.sends
  rw [← packetStarts_flatten ht.wholePacket] at h
  have := h.slot ht.cut.symm j
  rw [Nat.zero_add, Nat.zero_add] at this
  exact this

theorem offset_length : offset sent sent.length = packets.flatten.length := by
  rw [offset, List.take_length, ht.sends.flatMap_payload, ht.cut]

theorem offset_le (j : Fin sent.length) : offset sent j ≤ packets.flatten.length :=
  ht.offset_length ▸ offset_mono sent (Nat.le_of_lt j.isLt)

variable {js : List (Fin sent.length)} {j : Fin sent.length} {first : Nat} {c : Channel}
  {qs : List (Bytes × Nat)}

theorem vcid_eq (hc : c.Follows vcid packets sent js first qs) (j : Fin sent.length) :
    ChannelFrame.vcid (sent.get j) = c.vcid :=
  (ht.ofChannel _ (List.get_mem sent j)).trans hc.vcid.symm

/-- The counts of two frames that are not too far apart tell whether one follows the other. -/
theorem frameCount_eq_iff {i : Fin sent.length} (hfew : FewLost (ChannelFrame.countModulus F) i j) :
    ChannelFrame.frameCount (sent.get j) =
      (ChannelFrame.frameCount (sent.get i) + 1) % ChannelFrame.countModulus F ↔ i.val + 1 = j := by
  rw [ht.numbered i, ht.numbered j, Nat.mod_add_mod]
  constructor
  · intro h
    have hz := Nat.sub_mod_eq_zero_of_mod_eq h
    have hlt : n + j.val - (n + i + 1) < ChannelFrame.countModulus F := by
      have := hfew.2
      omega
    rw [Nat.mod_eq_of_lt hlt] at hz
    have := hfew.1
    omega
  · intro h
    rw [← h, Nat.add_assoc]

theorem gap?_isSome (hc : c.Follows vcid packets sent js first qs)
    (hfew : ∀ i ∈ js.getLast?, FewLost (ChannelFrame.countModulus F) i j) :
    (c.gap? (sent.get j)).isSome ↔ js ≠ [] ∧ upcoming js ≠ j := by
  rw [Channel.gap?, if_pos (ht.countChecked _ (List.get_mem sent j)), hc.lastCount, upcoming]
  cases hl : js.getLast? with
  | none => simp [Gap.between?, List.getLast?_eq_none_iff.mp hl]
  | some i =>
    have hne : js ≠ [] := fun h => by simp [h] at hl
    have hiff := ht.frameCount_eq_iff (hfew i hl)
    rw [Option.map_some, Option.map_some, Option.getD_some, Gap.between?]
    split
    · simp [hiff.mp ‹_›]
    · simp [hne, mt hiff.mpr ‹_›]

/-- What ends in a frame lies in the last run. -/
theorem mem_endingIn (hr : LastRun (js ++ [j]) first) {q : Bytes × Nat}
    (hq : q ∈ endingIn packets sent js j) :
    q ∈ located packets ∧ offset sent first ≤ q.2 ∧ offset sent j < q.2 + q.1.length ∧
      q.2 + q.1.length ≤ offset sent (j + 1) := by
  obtain ⟨hmem, hq⟩ := List.mem_filter.mp hq
  obtain ⟨hw, hlt⟩ := of_decide_eq_true hq
  have hpos := (ht.wholePacket _ (mem_of_mem_located hmem)).length_pos
  have hend := ht.offset_length ▸ end_le_of_mem_located hmem
  obtain ⟨hs, he⟩ := (whollyReceived_iff_of_lt hr hpos hend hlt).mp hw
  exact ⟨hmem, hs, hlt, he⟩

/-- What a frame completes is what it holds the end of and has been wholly received. -/
theorem completed (hr : LastRun (js ++ [j]) first) {done : List Bytes}
    (hd : (receivedSince packets sent first (j + 1)).1 =
      (receivedSince packets sent first j).1 ++ done) :
    done = (endingIn packets sent js j).map (·.1) := by
  have hold : (located packets).filter (fun q => (offset sent first ≤ q.2 ∧
      q.2 + q.1.length ≤ offset sent (j + 1)) ∧ q.2 + q.1.length ≤ offset sent j) =
      (located packets).filter fun q => offset sent first ≤ q.2 ∧
        q.2 + q.1.length ≤ offset sent j := by
    refine List.filter_congr fun q _ => ?_
    have := offset_le_succ sent j
    rw [decide_eq_decide]
    omega
  have hnew : (located packets).filter (fun q => (offset sent first ≤ q.2 ∧
      q.2 + q.1.length ≤ offset sent (j + 1)) ∧ offset sent j < q.2 + q.1.length) =
      endingIn packets sent js j := by
    refine List.filter_congr fun q hq => ?_
    have hpos := (ht.wholePacket _ (mem_of_mem_located hq)).length_pos
    have hend := ht.offset_length ▸ end_le_of_mem_located hq
    rw [decide_eq_decide]
    exact and_congr_left fun hlt => (whollyReceived_iff_of_lt hr hpos hend hlt).symm
  rw [receivedSince, receivedSince, packets_between ht.wholePacket, packets_between ht.wholePacket,
    filter_located packets _ (offset sent j), hold, hnew, List.map_append] at hd
  exact (List.append_cancel_left hd).symm

/-- The packets received before a frame, and those that it completes, are those received with it. -/
theorem filter_whollyReceived (hr : LastRun js first) (hj : upcoming js ≤ j) :
    (located packets).filter (fun q => WhollyReceived sent (js ++ [j]) q) =
      (located packets).filter (fun q => WhollyReceived sent js q) ++
        endingIn packets sent js j := by
  rw [filter_located packets _ (offset sent j), endingIn]
  congr 1
  refine List.filter_congr fun q hq => ?_
  have hpos := (ht.wholePacket _ (mem_of_mem_located hq)).length_pos
  have hend := ht.offset_length ▸ end_le_of_mem_located hq
  rw [decide_eq_decide]
  exact (whollyReceived_iff_of_le hr hj hpos hend).symm

/-- What ends in a frame comes after all that was handed out before. -/
theorem start_lt_of_mem_endingIn (hc : c.Follows vcid packets sent js first qs)
    (hr : LastRun js first) (hj : upcoming js ≤ j) {q r : Bytes × Nat} (hq : q ∈ qs)
    (hmem : r ∈ endingIn packets sent js j) : q.2 < r.2 := by
  obtain ⟨hr', hs, hlt, -⟩ := ht.mem_endingIn (hr.concat hj) hmem
  obtain ⟨hq', hpast | hpast⟩ := hc.past_concat hr hj q hq
  · exact Nat.lt_of_lt_of_le hpast hs
  · exact start_lt_of_end_lt ht.ne_nil hq' hr' (Nat.lt_of_le_of_lt hpast hlt)

/-- A frame continues what the last run leaves, or begins a run. -/
theorem continued (hc : c.Follows vcid packets sent js first qs)
    (hfew : ∀ i ∈ js.getLast?, FewLost (ChannelFrame.countModulus F) i j) :
    c.continued (sent.get j) = (receivedSince packets sent (runStart js first j) j).2 := by
  by_cases hu : upcoming js = j
  · have hgap : (c.gap? (sent.get j)).isSome = false :=
      Bool.eq_false_iff.mpr fun h => ((ht.gap?_isSome hc hfew).mp h).2 hu
    rw [Channel.continued, Channel.missed, hgap, Bool.or_false, hc.inFlight, runStart, if_pos hu, hu]
  have hnone : (receivedSince packets sent j j).2 = none := by
    rw [receivedSince, Bytes.between_of_le (le_resync (ht.offset_le j)), extract]
  rw [runStart, if_neg hu, hnone]
  -- the first frame of all shows no gap, but then nothing is in flight
  by_cases hjs : js = []
  · have hgap : (c.gap? (sent.get j)).isSome = false :=
      Bool.eq_false_iff.mpr fun h => ((ht.gap?_isSome hc hfew).mp h).1 hjs
    rw [Channel.continued, Channel.missed, hgap, Bool.or_false, hc.inFlight, hjs]
    show (extract .space (((packets.flatten).take 0).drop _)).2 = none
    rw [List.take_zero, List.drop_nil, extract]
  · have hgap := (ht.gap?_isSome hc hfew).mpr ⟨hjs, hu⟩
    rw [Channel.continued, Channel.missed, hgap, Bool.or_true, if_pos rfl]

section Frame

variable (hc : c.Follows vcid packets sent js first qs) (hr : LastRun js first)
  (hj : upcoming js ≤ j) (hfew : ∀ i ∈ js.getLast?, FewLost (ChannelFrame.countModulus F) i j)
include hc hr hj hfew

/-- A packet that a frame does not continue has lost a frame. -/
theorem stale_of_missed (hm : c.missed (sent.get j) = true) {p : PartialPacket}
    (hp : p ∈ c.inFlight?) :
    ∃ q, p.Stale packets sent (js ++ [j]) (runStart js first j) qs q := by
  by_cases hpend : c.pendingGap = true
  · obtain ⟨q, hq⟩ := hc.stale hpend p hp
    exact ⟨q, { hq with
      torn := hq.torn.concat hj
      start_lt := Nat.lt_of_lt_of_le hq.start_lt (offset_mono sent (hr.le_runStart hj)) }⟩
  have hgap : (c.gap? (sent.get j)).isSome = true := by
    rw [Channel.missed, Bool.eq_false_iff.mpr hpend] at hm
    exact hm
  obtain ⟨-, hne⟩ := (ht.gap?_isSome hc hfew).mp hgap
  have hlt : upcoming js < j := Nat.lt_of_le_of_ne hj hne
  have hin := hc.inFlight
  rw [if_neg hpend, hp] at hin
  obtain ⟨q, hq, hpre, hfirst, hstart, hend⟩ := prefix_of_inFlight ht.wholePacket hin.symm
  -- the frame that should have come next is lost, and it holds some of the packet
  let k : Fin sent.length := ⟨upcoming js, Nat.lt_trans hlt j.isLt⟩
  refine ⟨q, extract_suspended hin.symm, hq, hpre, ⟨k, ?_, fun hk => ?_, ?_, ?_⟩, ?_, fun r hr' => ?_⟩
  · rw [upcoming_concat]
    exact Nat.lt_succ_of_lt hlt
  · rcases List.mem_append.mp hk with hk | hk
    · exact Nat.lt_irrefl _ (hr.lt k hk)
    · exact hne (congrArg Fin.val (List.mem_singleton.mp hk))
  · rw [holder_le_iff]
    exact Nat.lt_of_lt_of_le hstart (offset_le_succ sent _)
  · rw [le_holder_iff]
    exact Nat.le_sub_one_of_lt hend
  · rw [runStart, if_neg hne]
    exact Nat.lt_of_lt_of_le hstart (offset_mono sent hj)
  · obtain ⟨hmem, hlt | hle⟩ := hc.past r hr'
    · exact Nat.lt_of_lt_of_le hlt hfirst
    · exact start_lt_of_end_lt ht.ne_nil hmem hq (Nat.lt_of_le_of_lt hle hend)

/-- What is cut off is the beginning of a packet that has lost a frame. -/
theorem cutOff_delivery :
    ∃ rs, Delivery packets sent (js ++ [j]) rs (c.cutOff (sent.get j)) ∧
      (∀ q ∈ qs, ∀ r ∈ rs, q.2 < r.2) ∧ ∀ r ∈ rs, r.2 < offset sent (runStart js first j) := by
  rcases c.cutOff_cases (sent.get j) with hnone | ⟨hm, p, hp, htotal, hcut⟩
  · rw [hnone]
    exact ⟨[], .nil, fun _ _ r hr' => absurd hr' List.not_mem_nil,
      fun r hr' => absurd hr' List.not_mem_nil⟩
  obtain ⟨q, hq⟩ := ht.stale_of_missed hc hr hj hfew hm hp
  rw [hq.suspended.total?_eq, PacketKind.declaredLength?_isSome_iff] at htotal
  have hne : p.bytes ≠ q.1 := fun h => by
    have hwhole := (ht.wholePacket _ (mem_of_mem_located hq.mem)).packetLength?
    rw [← h, hq.suspended.incomplete] at hwhole
    cases hwhole
  rw [hcut]
  exact ⟨[q], .singleton hq.mem ⟨hq.torn, htotal, hq.isPrefix, hne⟩,
    fun r hr' s hs => List.mem_singleton.mp hs ▸ hq.after r hr',
    fun r hr' => List.mem_singleton.mp hr' ▸ hq.start_lt⟩

theorem process_idle (hi : ChannelFrame.isIdle (sent.get j) = true)
    (ho : offset sent (j + 1) = offset sent j) :
    (c.process (sent.get j)).RightFor vcid packets sent js first qs j := by
  obtain ⟨hchannel, hpackets, hresult⟩ :=
    Channel.process_idle (ht.vcid_eq hc j) hc.mode hi
  have hsame : receivedSince packets sent (runStart js first j) (j + 1) =
      receivedSince packets sent (runStart js first j) j := by
    rw [receivedSince, receivedSince, ho]
  refine ⟨hresult, ?_, [], hpackets ▸ .nil, fun _ _ r hr' => absurd hr' List.not_mem_nil, ?_⟩
  · have hnone : (receivedSince packets sent (runStart js first j) (j + 1)).1 =
        (receivedSince packets sent (runStart js first j) j).1 ++ [] := by
      rw [hsame, List.append_nil]
    rw [hpackets, ← ht.completed (hr.concat hj) hnone]
    rfl
  · rw [hchannel, List.append_nil]
    refine ⟨hc.vcid, hc.mode, ?_, ?_, fun hm p hp => ht.stale_of_missed hc hr hj hfew hm hp, ?_⟩
    · rw [List.getLast?_concat]
      rfl
    · rw [upcoming_concat, hsame]
      exact ht.continued hc hfew
    · rw [upcoming_concat, ho]
      exact hc.past_concat hr hj

theorem process_zone (hi : ChannelFrame.isIdle (sent.get j) = false)
    (hlt : offset sent j < offset sent (j + 1))
    (hle : offset sent (j + 1) ≤ packets.flatten.length)
    (hfield : ChannelFrame.packetField (sent.get j) =
      .ok (Bytes.between (offset sent j) (offset sent (j + 1)) packets.flatten,
        firstIn? (PacketKind.space.packetStarts packets.flatten) (offset sent j)
          (offset sent (j + 1)))) :
    (c.process (sent.get j)).RightFor vcid packets sent js first qs j := by
  have hlast := hr.concat hj
  obtain ⟨hchannel, hpackets, hresult⟩ :=
    Channel.process_zone (ht.vcid_eq hc j) hc.mode hi hfield
  -- the channel does what one does that began with the first frame of the run
  obtain ⟨done, hdone, hadvance⟩ :=
    advance_between .space packets.flatten (offset_mono sent (hr.runStart_le hj)) hlt hle
  rw [ht.continued hc hfew, receivedSince, hadvance] at hchannel hpackets
  rw [ht.completed hlast hdone, List.map_map] at hpackets
  obtain ⟨cut, hcut, hafter, hbefore⟩ := ht.cutOff_delivery hc hr hj hfew
  refine ⟨hresult, ?_, cut ++ endingIn packets sent js j, ?_, fun q hq r hr' => ?_, ?_⟩
  · have hnone : (c.cutOff (sent.get j)).filter (·.complete) = [] := by
      rcases c.cutOff_cases (sent.get j) with h | ⟨-, p, -, -, h⟩ <;> rw [h] <;> rfl
    rw [hpackets, List.filter_append, hnone, List.nil_append]
    simp [List.filter_map, Function.comp_def]
  · rw [hpackets]
    exact hcut.append (.endingIn ht.ne_nil) fun q hq r hr' =>
      Nat.lt_of_lt_of_le (hbefore q hq) (ht.mem_endingIn hlast hr').2.1
  · rcases List.mem_append.mp hr' with hr' | hr'
    · exact hafter q hq r hr'
    · exact ht.start_lt_of_mem_endingIn hc hr hj hq hr'
  · rw [hchannel]
    refine ⟨hc.vcid, hc.mode, ?_, ?_, nofun, fun q hq => ?_⟩
    · rw [List.getLast?_concat]
      rfl
    · rw [upcoming_concat]
      rfl
    · rw [upcoming_concat]
      rcases List.mem_append.mp hq with hq | hq
      · obtain ⟨hmem, hpast⟩ := hc.past_concat hr hj q hq
        exact ⟨hmem, hpast.imp_right (Nat.le_trans · (Nat.le_of_lt hlt))⟩
      rcases List.mem_append.mp hq with hq | hq
      · exact ⟨hcut.mem q hq, .inl (hbefore q hq)⟩
      · obtain ⟨hmem, -, -, hend⟩ := ht.mem_endingIn hlast hq
        exact ⟨hmem, .inr hend⟩

theorem step : (c.process (sent.get j)).RightFor vcid packets sent js first qs j := by
  cases ht.slot j with
  | idle hi ho => exact ht.process_idle hc hr hj hfew hi ho
  | zone hi hlt hle hfield => exact ht.process_zone hc hr hj hfew hi hlt hle hfield

end Frame

/-- Any number of frames. -/
theorem run (strict : Bool) (listeners : List Nat)
    (hfew : js.IsChain (FewLost (ChannelFrame.countModulus F))) :
    let c := Channel.fresh vcid .space strict listeners
    (∃ first qs, LastRun js first ∧
      (c.after (js.map sent.get)).Follows vcid packets sent js first qs ∧
      Delivery packets sent js qs (c.packets (js.map sent.get))) ∧
    (∀ o ∈ c.outcomes (js.map sent.get), o.result = .ok ()) ∧
    ((c.packets (js.map sent.get)).filter (·.complete)).map (·.bytes) =
      ((located packets).filter (WhollyReceived sent js)).map (·.1) := by
  intro c
  induction js using List.reverseRecOn with
  | nil =>
    have hnone : (located packets).filter (WhollyReceived sent []) = [] := by
      refine List.filter_eq_nil_iff.mpr fun q hq => ?_
      have hpos := (ht.wholePacket _ (mem_of_mem_located hq)).length_pos
      have hend := ht.offset_length ▸ end_le_of_mem_located hq
      rw [decide_eq_true_eq]
      intro h
      have : q.2 + q.1.length ≤ 0 := h.end_le .nil hpos hend
      omega
    rw [List.map_nil, hnone]
    refine ⟨⟨0, [], .nil, ⟨rfl, rfl, rfl, ?_, fun h => absurd h Bool.false_ne_true,
      fun q hq => absurd hq List.not_mem_nil⟩, .nil⟩, fun o ho => absurd ho List.not_mem_nil, rfl⟩
    rw [receivedSince]
    show none = (extract .space (Bytes.between _ 0 _)).2
    rw [Bytes.between_of_le (Nat.zero_le _), extract]
  | append_singleton js j ih =>
    obtain ⟨hj, hlast⟩ := upcoming_le_of_fewLost hfew
    obtain ⟨⟨first, qs, hr, hc, hdelivery⟩, hok, hwhole⟩ := ih (List.isChain_append.mp hfew).1
    have hright := ht.step hc hr hj hlast
    obtain ⟨rs, hnew, hafter, hfollows⟩ := hright.follows
    rw [List.map_append, List.map_singleton, Channel.after_concat, Channel.outcomes_concat,
      Channel.packets_concat]
    refine ⟨⟨runStart js first j, qs ++ rs, hr.concat hj, hfollows,
      (hdelivery.concat hj).append hnew hafter⟩, fun o ho => ?_, ?_⟩
    · rcases List.mem_append.mp ho with ho | ho
      · exact hok o ho
      · exact List.mem_singleton.mp ho ▸ hright.result
    · rw [List.filter_append, List.map_append, hwhole, hright.whole, ht.filter_whollyReceived hr hj,
        List.map_append]

end Transmitted

/-- Of the packets that are sent, those none of whose frames is lost are handed out, each once and
in order. Of the others no more is handed out than one beginning each, in its place among the rest
and marked as cut off. No frame is refused. -/
theorem packets_of_received (ht : Transmitted vcid n packets zones sent) (strict : Bool)
    (listeners : List Nat) (received : List (Fin sent.length))
    (hfew : received.IsChain (FewLost (ChannelFrame.countModulus F))) :
    let c := Channel.fresh vcid .space strict listeners
    let arrived := received.map sent.get
    (∀ o ∈ c.outcomes arrived, o.result = .ok ()) ∧
    ((c.packets arrived).filter (·.complete)).map (·.bytes) =
      ((located packets).filter (WhollyReceived sent received)).map (·.1) ∧
    ∃ qs, qs.Sublist (located packets) ∧
      List.Forall₂ (HandedOut sent received) qs (c.packets arrived) := by
  intro c arrived
  obtain ⟨⟨first, qs, -, -, hdelivery⟩, hok, hwhole⟩ := ht.run strict listeners hfew
  exact ⟨hok, hwhole, qs, hdelivery.sublist ht.ne_nil, hdelivery.handedOut⟩

/-- Three packets in five frames of which the third, which is idle, is lost. The second packet has
bytes on both sides of it. -/
theorem packets_of_received_idle_lost :
    let packets : List Bytes := [
      [0x00, 0x01, 0xc0, 0x00, 0x00, 0x00, 0xaa],
      [0x00, 0x01, 0xc0, 0x01, 0x00, 0x02, 0xb0, 0xb1, 0xb2],
      [0x00, 0x01, 0xc0, 0x02, 0x00, 0x01, 0xc0, 0xc1]]
    let sent := [
      Tm.Frame.plain 5 254 0 [0x00, 0x01, 0xc0, 0x00, 0x00, 0x00, 0xaa, 0x00, 0x01, 0xc0],
      Tm.Frame.plain 5 255 0x7ff [0x01, 0x00, 0x02, 0xb0], Tm.Frame.plain 5 0 0x7fe [0xff],
      Tm.Frame.plain 5 1 2 [0xb1, 0xb2, 0x00, 0x01, 0xc0, 0x02, 0x00, 0x01],
      Tm.Frame.plain 5 2 0x7ff [0xc0, 0xc1]]
    let received : List (Fin sent.length) := [⟨0, by decide⟩, ⟨1, by decide⟩, ⟨3, by decide⟩,
      ⟨4, by decide⟩]
    let c := Channel.fresh 5 .space true [0]
    let arrived := received.map sent.get
    Transmitted 5 254 packets [[0x00, 0x01, 0xc0, 0x00, 0x00, 0x00, 0xaa, 0x00, 0x01, 0xc0],
      [0x01, 0x00, 0x02, 0xb0], [0xb1, 0xb2, 0x00, 0x01, 0xc0, 0x02, 0x00, 0x01], [0xc0, 0xc1]]
      sent ∧
    (∀ o ∈ c.outcomes arrived, o.result = .ok ()) ∧
    ((c.packets arrived).filter (·.complete)).map (·.bytes) =
      [[0x00, 0x01, 0xc0, 0x00, 0x00, 0x00, 0xaa],
        [0x00, 0x01, 0xc0, 0x02, 0x00, 0x01, 0xc0, 0xc1]] := by
  intro packets sent received c arrived
  have ht : Transmitted 5 254 packets
      [[0x00, 0x01, 0xc0, 0x00, 0x00, 0x00, 0xaa, 0x00, 0x01, 0xc0],
      [0x01, 0x00, 0x02, 0xb0], [0xb1, 0xb2, 0x00, 0x01, 0xc0, 0x02, 0x00, 0x01], [0xc0, 0xc1]]
      sent :=
    { declared := by decide
      cut := rfl
      sends := .zone (by decide) (by decide) (Tm.Frame.carries_plain 5 254 _ (some 0)) <|
        .zone (by decide) (by decide) (Tm.Frame.carries_plain 5 255 _ none) <|
        .idle rfl <|
        .zone (by decide) (by decide) (Tm.Frame.carries_plain 5 1 _ (some 2)) <|
        .zone (by decide) (by decide) (Tm.Frame.carries_plain 5 2 _ none) .done
      ofChannel := by decide
      countChecked := by decide
      numbered := fun i => by revert i; decide }
  have hfew : received.IsChain (FewLost (ChannelFrame.countModulus Tm.Frame)) :=
    .cons_cons ⟨by decide, by decide⟩ <| .cons_cons ⟨by decide, by decide⟩ <|
      .cons_cons ⟨by decide, by decide⟩ <| .singleton _
  obtain ⟨hok, hwhole, -⟩ := packets_of_received ht true [0] received hfew
  exact ⟨ht, hok, hwhole⟩

end SpaceLink
