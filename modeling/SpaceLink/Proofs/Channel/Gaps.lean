import Mathlib.Order.Interval.Finset.Fin
import SpaceLink.Proofs.Aos.Frame
import SpaceLink.Proofs.FrameCount
import SpaceLink.Proofs.Channel.Invariant
import SpaceLink.Proofs.Channel.Reception

/-!
# Missing frames

A channel remembers the count of the last frame of its virtual channel and of nothing else
(`Channel.lastCount?_after`), so it reports a gap before a frame exactly if the two counts are not
consecutive and the frame is one whose count is checked (`Channel.gaps_after`). If frames are
numbered consecutively when they are sent, the gaps add up to the frames that were lost
(`Channel.sum_missing`). Both hold in every access mode and whatever else becomes of the frames.
-/

namespace SpaceLink

/-- The gap that an event reports. -/
def Event.gap? : Event → Option Gap
  | .gapDetected gap => some gap
  | .frameReceived | .packetExtracted _ _ _ | .dataExtracted _ | .bitstreamExtracted _ _ => none

/-- The gaps that are reported, in order. -/
def Outcome.gaps (o : Outcome) : List Gap := o.events.filterMap Event.gap?

/-! ## Words of 32 bits -/

namespace Checked

/-- The sum of two numbers, if it is a word of 32 bits. -/
def sum? (a b : Nat) : Option Nat := if a + b < 2 ^ 32 then some (a + b) else none

theorem sum?_of_lt {a b : Nat} (h : a + b < 2 ^ 32) : sum? a b = some (a + b) := if_pos h

def forwardDistance (expected received modulus : Nat) : Option Nat :=
  let expected := expected % modulus
  let received := received % modulus
  if expected ≤ received then difference? received expected
  else do sum? (← difference? modulus expected) received

def gapBetween (last? : Option Nat) (received modulus : Nat) : Option (Option Gap) :=
  match last? with
  | none => some none
  | some last => do
    let expected := (← sum? last 1) % modulus
    if received = expected then return none
    return some { expected, received, missing := ← forwardDistance expected received modulus }

def gap {F : Type} [ChannelFrame F] (c : Channel) (f : F) : Option (Option Gap) :=
  if ChannelFrame.countChecked f then
    gapBetween c.lastCount? (ChannelFrame.frameCount f) (ChannelFrame.countModulus F)
  else some none

variable {modulus : Nat}

theorem forwardDistance_eq (hpos : 0 < modulus) (hle : modulus ≤ 2 ^ 31) (expected received : Nat) :
    forwardDistance expected received modulus =
      some (SpaceLink.forwardDistance expected received modulus) := by
  have he := Nat.mod_lt expected hpos
  have hr := Nat.mod_lt received hpos
  rw [forwardDistance, SpaceLink.forwardDistance]
  split
  · exact difference?_of_le ‹_›
  · rw [difference?_of_le (Nat.le_of_lt he)]
    exact sum?_of_lt (by omega)

theorem gapBetween_eq (hpos : 0 < modulus) (hle : modulus ≤ 2 ^ 31) {last? : Option Nat}
    (hlast : ∀ last ∈ last?, last < modulus) (received : Nat) :
    gapBetween last? received modulus = some (Gap.between? last? received modulus) := by
  cases last? with
  | none => rfl
  | some last =>
    have := hlast last rfl
    rw [gapBetween, Gap.between?, sum?_of_lt (by omega)]
    simp only [Option.bind_eq_bind, Option.bind_some, forwardDistance_eq hpos hle]
    split <;> rfl

end Checked

/-! ## One frame -/

namespace Channel

variable {F : Type} [ChannelFrame F]

theorem gap?_of_mem_processContents {c : Channel} {f : F} {gap : Bool} {event : Event}
    (h : event ∈ (c.processContents f gap).events) : event.gap? = none := by
  have hpackets (kind : PacketKind) (h : event ∈ (c.processPackets kind f gap).events) :
      event.gap? = none := by
    have := isGap_of_mem_processPackets h
    cases event with
    | gapDetected => cases this
    | frameReceived | packetExtracted | dataExtracted | bitstreamExtracted => rfl
  rw [processContents] at h
  split at h
  · rw [List.mem_singleton.mp h]
    rfl
  · rw [processBitstream] at h
    split at h
    · cases h
    split at h
    · cases h
    split at h
    · cases h
    · rw [List.mem_singleton.mp h]
      rfl
  · exact hpackets .space h
  · exact hpackets .encapsulation h

/-- A frame of the channel reports the gap between the counts, any other frame none. -/
theorem gaps_process (c : Channel) (f : F) :
    (c.process f).gaps = if ChannelFrame.vcid f = c.vcid then (c.gap? f).toList else [] := by
  by_cases hv : ChannelFrame.vcid f = c.vcid
  · rw [if_pos hv, process, if_neg (not_not_intro hv), Outcome.gaps, List.filterMap_cons_none rfl,
      List.filterMap_append,
      List.filterMap_eq_nil_iff.mpr fun _ h => gap?_of_mem_processContents h, List.append_nil]
    cases c.gap? f <;> rfl
  · rw [if_neg hv, Outcome.gaps, (process_of_vcid_ne hv).2, List.filterMap_nil]

/-- What a frame contains only changes what is known about the packet in flight. -/
theorem processContents_keeps (c : Channel) (f : F) (gap : Bool) :
    ∃ inFlight? pendingGap,
      (c.processContents f gap).channel = { c with inFlight?, pendingGap } := by
  have hpackets (kind : PacketKind) : ∃ inFlight? pendingGap,
      (c.processPackets kind f gap).channel = { c with inFlight?, pendingGap } := by
    rw [processPackets]
    dsimp only
    split
    · exact ⟨_, _, rfl⟩
    split <;> exact ⟨_, _, rfl⟩
  rw [processContents]
  split
  · exact ⟨_, _, rfl⟩
  · rw [processBitstream_channel]
    exact ⟨_, _, rfl⟩
  · exact hpackets .space
  · exact hpackets .encapsulation

/-- Frames never change what a channel is for and who listens to it. -/
theorem process_keeps (c : Channel) (f : F) : ∃ lastCount? inFlight? pendingGap,
    (c.process f).channel = { c with lastCount?, inFlight?, pendingGap } := by
  by_cases hv : ChannelFrame.vcid f = c.vcid
  · obtain ⟨_, _, h⟩ := processContents_keeps
      { c with lastCount? := some (ChannelFrame.frameCount f) } f (c.gap? f).isSome
    rw [process, if_neg (not_not_intro hv)]
    exact ⟨_, _, _, h⟩
  · exact ⟨_, _, _, (process_of_vcid_ne hv).1⟩

theorem vcid_process (c : Channel) (f : F) : (c.process f).channel.vcid = c.vcid := by
  obtain ⟨_, _, _, h⟩ := c.process_keeps f
  rw [h]

theorem lastCount?_process (c : Channel) (f : F) : (c.process f).channel.lastCount? =
    if ChannelFrame.vcid f = c.vcid then some (ChannelFrame.frameCount f) else c.lastCount? := by
  by_cases hv : ChannelFrame.vcid f = c.vcid
  · obtain ⟨_, _, h⟩ := processContents_keeps
      { c with lastCount? := some (ChannelFrame.frameCount f) } f (c.gap? f).isSome
    rw [if_pos hv, process, if_neg (not_not_intro hv)]
    dsimp only
    rw [h]
  · rw [if_neg hv, (process_of_vcid_ne hv).1]

/-! ## Any number of frames -/

/-- The frames of the channel's own virtual channel. -/
def own (c : Channel) (fs : List F) : List F := fs.filter (ChannelFrame.vcid · = c.vcid)

theorem own_concat (c : Channel) (fs : List F) (f : F) :
    c.own (fs ++ [f]) = c.own fs ++ if ChannelFrame.vcid f = c.vcid then [f] else [] := by
  rw [own, List.filter_append, List.filter_singleton, own]
  congr 1
  by_cases hv : ChannelFrame.vcid f = c.vcid
  · rw [if_pos hv, decide_eq_true hv, Bool.cond_true]
  · rw [if_neg hv, decide_eq_false hv, Bool.cond_false]

theorem after_keeps (c : Channel) (fs : List F) : ∃ lastCount? inFlight? pendingGap,
    c.after fs = { c with lastCount?, inFlight?, pendingGap } := by
  induction fs generalizing c with
  | nil => exact ⟨_, _, _, rfl⟩
  | cons f fs ih =>
    obtain ⟨_, _, _, hf⟩ := c.process_keeps f
    rw [after, hf]
    exact ih _

theorem vcid_after (c : Channel) (fs : List F) : (c.after fs).vcid = c.vcid := by
  obtain ⟨_, _, _, h⟩ := c.after_keeps fs
  rw [h]

/-- The count that a channel has is that of the last frame of its virtual channel, whether it was
checked or not, idle, or could not be used. -/
theorem lastCount?_after {c : Channel} (hc : c.lastCount? = none) (fs : List F) :
    (c.after fs).lastCount? = (c.own fs).getLast?.map ChannelFrame.frameCount := by
  induction fs using List.reverseRecOn with
  | nil => exact hc
  | append_singleton fs f ih =>
    rw [after_concat, lastCount?_process, vcid_after, own_concat]
    split
    · rw [List.getLast?_concat, Option.map_some]
    · rw [List.append_nil, ih]

variable {c : Channel} {earlier frames : List F} {f : F} {modulus : Nat} {checked : F → Bool}

theorem gaps_after (hc : c.lastCount? = none) (earlier : List F) (f : F) :
    ((c.after earlier).process f).gaps =
      if ChannelFrame.vcid f = c.vcid ∧ ChannelFrame.countChecked f = true then
        (Gap.between? ((c.own earlier).getLast?.map ChannelFrame.frameCount)
          (ChannelFrame.frameCount f) (ChannelFrame.countModulus F)).toList
      else [] := by
  rw [gaps_process, vcid_after, Channel.gap?, lastCount?_after hc, ite_and]
  congr 1
  split <;> rfl

/-- What is reported about missing frames for the frame `f` after the frames `earlier`, of which
some are of other virtual channels. The counts of frames that are `checked` are looked at. -/
structure ReportsGap (c : Channel) (modulus : Nat) (checked : F → Bool) (earlier : List F) (f : F) :
    Prop where
  length_le_one : ((c.after earlier).process f).gaps.length ≤ 1
  ne_nil_iff : ((c.after earlier).process f).gaps ≠ [] ↔
    ChannelFrame.vcid f = c.vcid ∧ checked f = true ∧ ∃ previous ∈ (c.own earlier).getLast?,
      ChannelFrame.frameCount f ≠ (ChannelFrame.frameCount previous + 1) % modulus
  spans : ∀ g ∈ ((c.after earlier).process f).gaps, ∃ previous ∈ (c.own earlier).getLast?,
    g.Spans (ChannelFrame.frameCount previous) (ChannelFrame.frameCount f) modulus
  in32Bits : ChannelFrame.vcid f = c.vcid →
    Checked.gap (c.after earlier) f = some ((c.after earlier).process f).gaps.head?

theorem reportsGap (hc : c.lastCount? = none) (hle : ChannelFrame.countModulus F ≤ 2 ^ 31)
    (hearlier : ∀ g ∈ earlier, ChannelFrame.frameCount g < ChannelFrame.countModulus F)
    (hf : ChannelFrame.frameCount f < ChannelFrame.countModulus F) :
    c.ReportsGap (ChannelFrame.countModulus F) ChannelFrame.countChecked earlier f := by
  have hpos := Nat.zero_lt_of_lt hf
  have hgaps := gaps_after hc earlier f
  have hlast := lastCount?_after hc earlier
  have hlt : ∀ last ∈ (c.own earlier).getLast?.map ChannelFrame.frameCount,
      last < ChannelFrame.countModulus F := by
    intro last h
    obtain ⟨g, hg, rfl⟩ := Option.map_eq_some_iff.mp h
    exact hearlier g (List.mem_of_mem_filter (List.mem_of_getLast? hg))
  refine ⟨?_, ?_, fun g hg => ?_, fun hv => ?_⟩
  · rw [hgaps]
    split
    · exact Option.length_toList_le
    · exact Nat.zero_le 1
  · rw [hgaps]
    by_cases hchecked : ChannelFrame.vcid f = c.vcid ∧ ChannelFrame.countChecked f = true
    · rw [if_pos hchecked, ne_eq, Option.toList_eq_nil_iff, ← ne_eq, Gap.between?_ne_none_iff]
      simp [hchecked]
    · rw [if_neg hchecked]
      exact ⟨fun h => absurd rfl h, fun ⟨hv, hc, _⟩ => absurd ⟨hv, hc⟩ hchecked⟩
  · rw [hgaps] at hg
    split at hg
    · cases hprevious : (c.own earlier).getLast? with
      | none =>
        rw [hprevious] at hg
        cases hg
      | some previous =>
        rw [hprevious, Option.mem_toList] at hg
        exact ⟨previous, rfl, ((Gap.between?_eq_some_iff hf).mp hg).2⟩
    · cases hg
  · rw [hgaps, Checked.gap, hlast]
    cases hchecked : ChannelFrame.countChecked f with
    | true =>
      rw [if_pos rfl, if_pos ⟨hv, rfl⟩, Checked.gapBetween_eq hpos hle hlt, Option.head?_toList]
    | false =>
      rw [if_neg Bool.false_ne_true, if_neg fun h => Bool.false_ne_true h.2]
      rfl

end Channel

/-! ## Lost frames -/

section Lost

variable {m : Nat} {js : List (Fin m)} {i j : Fin m} {modulus : Nat}

/-- The frames lost between the first and the last of those that are received. -/
def lostBetween (received : List (Fin m)) : Finset (Fin m) :=
  {k | (∃ i ∈ received, i < k) ∧ (∃ i ∈ received, k < i) ∧ k ∉ received}

theorem le_getLast_of_fewLost (h : js.IsChain (FewLost modulus)) (hi : i ∈ js.getLast?) :
    ∀ k ∈ js, k ≤ i := by
  obtain ⟨earlier, rfl⟩ := List.getLast?_eq_some_iff.mp hi
  have hsorted : (earlier ++ [i]).Pairwise (· < ·) :=
    List.isChain_iff_pairwise.mp (h.imp fun _ _ h => h.1)
  intro k hk
  rcases List.mem_append.mp hk with hk | hk
  · exact Fin.le_of_lt ((List.pairwise_append.mp hsorted).2.2 k hk i (List.mem_singleton_self i))
  · exact Fin.le_of_eq (List.mem_singleton.mp hk)

/-- With one more frame received, those between it and the previous one are known to be lost. -/
theorem lostBetween_concat (hi : i ∈ js) (hlast : ∀ k ∈ js, k ≤ i) (hij : i < j) :
    lostBetween (js ++ [j]) = lostBetween js ∪ Finset.Ioo i j := by
  ext k
  simp only [lostBetween, Finset.mem_union, Finset.mem_filter, Finset.mem_univ, true_and,
    Finset.mem_Ioo, List.mem_append, List.mem_singleton]
  constructor
  · rintro ⟨⟨a, ha, hak⟩, ⟨b, hb, hkb⟩, hk⟩
    obtain ⟨hkjs, hkj⟩ := not_or.mp hk
    rcases lt_or_gt_of_ne (ne_of_mem_of_not_mem hi hkjs) with hik | hki
    · refine .inr ⟨hik, ?_⟩
      rcases hb with hb | rfl
      · exact absurd (hlast b hb) (not_le_of_gt (hik.trans hkb))
      · exact hkb
    · refine .inl ⟨⟨a, ?_, hak⟩, ⟨i, hi, hki⟩, hkjs⟩
      rcases ha with ha | rfl
      · exact ha
      · exact absurd (hak.trans hki) hij.not_gt
  · rintro (⟨⟨a, ha, hak⟩, ⟨b, hb, hkb⟩, hk⟩ | ⟨hik, hkj⟩)
    · have hkj : k < j := (hkb.trans_le (hlast b hb)).trans hij
      exact ⟨⟨a, .inl ha, hak⟩, ⟨b, .inl hb, hkb⟩, not_or.mpr ⟨hk, hkj.ne⟩⟩
    · exact ⟨⟨i, .inl hi, hik⟩, ⟨j, .inr rfl, hkj⟩,
        not_or.mpr ⟨fun hk => absurd (hlast k hk) hik.not_ge, hkj.ne⟩⟩

theorem card_lostBetween_concat (hi : i ∈ js) (hlast : ∀ k ∈ js, k ≤ i) (hij : i < j) :
    (lostBetween (js ++ [j])).card = (lostBetween js).card + (j - i - 1) := by
  have hdisjoint : Disjoint (lostBetween js) (Finset.Ioo i j) := by
    refine Finset.disjoint_left.mpr fun k hk hik => ?_
    obtain ⟨-, ⟨b, hb, hkb⟩, -⟩ := (Finset.mem_filter.mp hk).2
    exact absurd (hlast b hb) ((Finset.mem_Ioo.mp hik).1.trans hkb).not_ge
  rw [lostBetween_concat hi hlast hij, Finset.card_union_of_disjoint hdisjoint, Fin.card_Ioo]

theorem lostBetween_nil : lostBetween ([] : List (Fin m)) = ∅ :=
  Finset.filter_eq_empty_iff.mpr fun _ _ ⟨⟨_, h, _⟩, _⟩ => List.not_mem_nil h

theorem lostBetween_singleton (j : Fin m) : lostBetween [j] = ∅ := by
  refine Finset.filter_eq_empty_iff.mpr fun k _ ⟨⟨a, ha, hak⟩, ⟨b, hb, hkb⟩, _⟩ => ?_
  rw [List.mem_singleton.mp ha] at hak
  rw [List.mem_singleton.mp hb] at hkb
  exact hak.not_gt hkb

end Lost

namespace Channel

variable {F : Type} [ChannelFrame F] {c : Channel} {n : Nat} {sent frames : List F}

/-- Of two frames that are numbered consecutively, the counts tell how many are between them. -/
theorem missing_between {i j : Fin sent.length} (hn : Numbered n sent)
    (hfew : FewLost (ChannelFrame.countModulus F) i j) :
    ((Gap.between? (some (ChannelFrame.frameCount (sent.get i)))
      (ChannelFrame.frameCount (sent.get j)) (ChannelFrame.countModulus F)).toList.map
        (·.missing)).sum = j - i - 1 := by
  obtain ⟨hij, hlost⟩ := hfew
  have hij : i.val < j.val := hij
  have hn' : n + i + 1 + (j - i - 1) = n + j := by omega
  have hdistance : forwardDistance
      ((ChannelFrame.frameCount (sent.get i) + 1) % ChannelFrame.countModulus F)
      (ChannelFrame.frameCount (sent.get j)) (ChannelFrame.countModulus F) = j - i - 1 := by
    rw [forwardDistance_eq_iff hlost, hn i, hn j, Nat.mod_mod, Nat.mod_add_mod, Nat.add_assoc,
      Nat.mod_add_mod, ← Nat.add_assoc, hn']
  rw [Gap.between?]
  split
  · rename_i heq
    -- no gap is no distance
    rw [heq, forwardDistance_self] at hdistance
    exact hdistance
  · exact hdistance

theorem sum_missing (hc : c.lastCount? = none) (hn : Numbered n sent) (frames : List F)
    {received : List (Fin sent.length)}
    (hfew : received.IsChain (FewLost (ChannelFrame.countModulus F)))
    (hown : c.own frames = received.map sent.get)
    (hchecked : ∀ f ∈ c.own frames, ChannelFrame.countChecked f = true) :
    (((c.outcomes frames).flatMap (·.gaps)).map (·.missing)).sum = (lostBetween received).card := by
  induction frames using List.reverseRecOn generalizing received with
  | nil =>
    have hnil : received = [] := List.map_eq_nil_iff.mp hown.symm
    rw [hnil, lostBetween_nil]
    rfl
  | append_singleton frames f ih =>
    rw [own_concat] at hown hchecked
    rw [outcomes_concat, List.flatMap_append, List.flatMap_singleton, List.map_append,
      List.sum_append, gaps_after hc]
    by_cases hv : ChannelFrame.vcid f = c.vcid
    · rw [if_pos hv] at hown hchecked
      obtain ⟨js, js', rfl, hjs, hj⟩ := List.map_eq_append_iff.mp hown.symm
      obtain ⟨j, rfl, hf⟩ := List.map_eq_singleton_iff.mp hj
      have hsum := ih (List.isChain_append.mp hfew).1 hjs.symm fun g hg =>
        hchecked g (List.mem_append_left _ hg)
      have hf' := hchecked f (List.mem_append_right _ (List.mem_singleton_self f))
      rw [hsum, if_pos ⟨hv, hf'⟩, ← hjs, ← hf]
      cases hlast : js.getLast? with
      | none =>
        rw [List.getLast?_eq_none_iff.mp hlast, lostBetween_nil, List.nil_append,
          lostBetween_singleton]
        rfl
      | some i =>
        have hij := (upcoming_le_of_fewLost hfew).2 i hlast
        rw [List.getLast?_map, hlast, Option.map_some, Option.map_some, missing_between hn hij,
          card_lostBetween_concat (List.mem_of_getLast? hlast)
            (le_getLast_of_fewLost (List.isChain_append.mp hfew).1 hlast) hij.1]
    · rw [if_neg hv, List.append_nil] at hown hchecked
      rw [if_neg fun h => hv h.1, ih hfew hown hchecked]
      rfl

/-- The gaps that are reported for frames are those in the counts of the channel's own ones, and
they add up to what was lost. -/
structure CountsGaps (c : Channel) (modulus : Nat) (checked : F → Bool) (frames : List F) :
    Prop where
  each : ∀ earlier f later, frames = earlier ++ f :: later → c.ReportsGap modulus checked earlier f
  total : ∀ (n : Nat) (sent : List F) (received : List (Fin sent.length)), Numbered n sent →
    received.IsChain (FewLost modulus) → c.own frames = received.map sent.get →
    (∀ f ∈ c.own frames, checked f = true) →
      (((c.outcomes frames).flatMap (·.gaps)).map (·.missing)).sum = (lostBetween received).card

theorem countsGaps (hc : c.lastCount? = none) (hle : ChannelFrame.countModulus F ≤ 2 ^ 31)
    (hlt : ∀ f ∈ frames, ChannelFrame.frameCount f < ChannelFrame.countModulus F) :
    c.CountsGaps (ChannelFrame.countModulus F) ChannelFrame.countChecked frames where
  each := by
    rintro earlier f later rfl
    exact reportsGap hc hle (fun g hg => hlt g (List.mem_append_left _ hg))
      (hlt f (List.mem_append_right _ List.mem_cons_self))
  total _ _ _ hn hfew hown hchecked := sum_missing hc hn frames hfew hown hchecked

/-- Counts that are not checked show nothing. -/
theorem gaps_of_unchecked (h : ∀ f : F, ChannelFrame.countChecked f = false) (c : Channel)
    (frames : List F) : ∀ o ∈ c.outcomes frames, o.gaps = [] := by
  induction frames generalizing c with
  | nil => exact fun o ho => absurd ho List.not_mem_nil
  | cons f frames ih =>
    intro o ho
    rcases List.mem_cons.mp ho with rfl | ho
    · rw [gaps_process, Channel.gap?, h f, if_neg Bool.false_ne_true]
      exact ite_self []
    · exact ih _ o ho

end Channel

/-- In every access mode and whatever else becomes of its frames, a new channel reports the gaps in
the counts of its TM frames, and of those AOS frames that use their count. The counts of TC frames
show no gaps. -/
theorem gaps_of_run (vcid : Nat) (mode : AccessMode) (strict : Bool) (listeners : List Nat) :
    let c : Channel := { vcid, mode, strict, listeners }
    (∀ frames : List Tm.Frame, c.CountsGaps Tm.countModulus (fun _ => true) frames) ∧
    (∀ frames : List Aos.Frame, (∀ f ∈ frames, ∃ d config, Aos.Frame.decode d config = .ok f) →
      c.CountsGaps Aos.countModulus (·.header.vcFrameCountUsage) frames) ∧
    ∀ frames : List Tc.Frame, ∀ o ∈ c.outcomes frames, o.gaps = [] := by
  intro c
  refine ⟨fun frames => ?_, fun frames hdecoded => ?_, Channel.gaps_of_unchecked (fun _ => rfl) c⟩
  · exact Channel.countsGaps rfl (by decide) fun f _ => f.header.vcFrameCount.toNat_lt
  · refine Channel.countsGaps rfl (by decide) fun f hf => ?_
    obtain ⟨d, config, hd⟩ := hdecoded f hf
    have := (Aos.Header.fits_of_decode (Aos.Frame.decode_eq_ok_iff.mp hd).header).vcFrameCount
    exact Nat.lt_succ_of_le this

/-- AOS frames across the end of the counts, of which four are lost, with an idle frame and one of
another virtual channel among them. -/
theorem gaps_of_run_wrapped :
    let bytes (vcid count : Nat) (pointer : UInt8) : Bytes := Aos.Header.encode {
      version := 1, scid := 9, vcid, vcFrameCount := count, replay := false
      vcFrameCountUsage := true, vcFrameCountCycle := 0 } ++ [0x07, pointer, 0xaa]
    let decoded := List.filterMap fun d => (Aos.Frame.decode d { fecfPresent := false }).toOption
    let sent := decoded [bytes 4 0xfffffd 0xff, bytes 4 0xfffffe 0xff, bytes 4 0xffffff 0xff,
      bytes 4 0 0xfe, bytes 4 1 0xff, bytes 4 2 0xff, bytes 4 3 0xff]
    let received : List (Fin sent.length) := [⟨0, by decide +kernel⟩, ⟨3, by decide +kernel⟩,
      ⟨6, by decide +kernel⟩]
    let frames := decoded [bytes 4 0xfffffd 0xff, bytes 5 70 0xff, bytes 4 0 0xfe, bytes 4 3 0xff]
    let c : Channel := { vcid := 4, mode := .packet, strict := true, listeners := [0] }
    (∀ f ∈ frames, ∃ d config, Aos.Frame.decode d config = .ok f) ∧ Numbered 0xfffffd sent ∧
    c.own frames = received.map sent.get ∧
    (((c.outcomes frames).flatMap (·.gaps)).map (·.missing)).sum = 4 := by
  intro bytes decoded sent received frames c
  have hdecoded : ∀ f ∈ frames, ∃ d config, Aos.Frame.decode d config = .ok f := by
    intro f hf
    obtain ⟨d, -, hd⟩ := List.mem_filterMap.mp hf
    cases hf' : Aos.Frame.decode d { fecfPresent := false } with
    | error e =>
      rw [hf'] at hd
      cases hd
    | ok g =>
      rw [hf'] at hd
      cases hd
      exact ⟨d, _, hf'⟩
  have hn : Numbered 0xfffffd sent := fun i => by revert i; decide +kernel
  have hown : c.own frames = received.map sent.get := by decide +kernel
  have hfew : received.IsChain (FewLost Aos.countModulus) :=
    .cons_cons ⟨by decide, by decide⟩ <| .cons_cons ⟨by decide, by decide⟩ <| .singleton _
  have hcounts := (gaps_of_run 4 .packet true [0]).2.1 frames hdecoded
  refine ⟨hdecoded, hn, hown, ?_⟩
  rw [hcounts.total _ sent received hn hfew hown (by decide +kernel)]
  decide +kernel

end SpaceLink
