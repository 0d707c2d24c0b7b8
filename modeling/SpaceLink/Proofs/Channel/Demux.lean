import Mathlib.Data.List.Nodup
import SpaceLink.Channel.Demux
import SpaceLink.Proofs.Channel.Carrier
import SpaceLink.Proofs.Channel.Gaps

/-!
# Channels do not interfere

What a demultiplexer is given are frames and resets (`Demux.Input`), and one channel is only
concerned by the resets and by the frames of its own number (`Demux.ownInputs`). What is held under a
number does with them what it would do alone: one input changes it as it changes the channel alone
(`Demux.channel?_take`), and so do any number of them, whatever the other channels do in between
(`Demux.channel?_takeAll`, `Demux.traceOf_eq`). A channel that gets the frames of all others too ends
up the same (`Channel.takeAll_own`, `Channel.trace_own`).

That a channel gets the frames of its own number needs every channel to be held under that number. It
is so for channels that have been put into a demultiplexer, and no input changes it (`Demux.Keyed`).
`Demux.separates` has all this for every demultiplexer that holds channels of distinct numbers.
-/

namespace SpaceLink

/-- What a demultiplexer can be given, or one channel in its place. -/
inductive Demux.Input (F : Type)
  | frame (f : F)
  | reset

theorem Outcome.vcid_of_mem_deliveries {F : Type} {o : Outcome} {f : F} {n : Notification F}
    (h : n ∈ o.deliveries f) : n.vcid = o.channel.vcid := by
  obtain ⟨event, -, hn⟩ := List.mem_flatMap.mp h
  obtain ⟨listener, -, rfl⟩ := List.mem_map.mp hn
  rfl

variable {F : Type} [ChannelFrame F]

namespace Channel

def take (c : Channel) : Demux.Input F → Channel
  | .frame f => (c.process f).channel
  | .reset => c.reset

def takeAll (c : Channel) (inputs : List (Demux.Input F)) : Channel := inputs.foldl take c

/-- Each frame with what comes of it. -/
def trace (c : Channel) : List (Demux.Input F) → List (F × Outcome)
  | [] => []
  | .frame f :: inputs => (f, c.process f) :: (c.process f).channel.trace inputs
  | .reset :: inputs => c.reset.trace inputs

/-- All that listeners are told. -/
def notifications (c : Channel) (inputs : List (Demux.Input F)) : List (Notification F) :=
  (c.trace inputs).flatMap fun t => t.2.deliveries t.1

end Channel

namespace Demux

def take (d : Demux) : Input F → Demux
  | .frame f => (d.process f).1
  | .reset => d.reset

def takeAll (d : Demux) (inputs : List (Input F)) : Demux := inputs.foldl take d

/-- Each frame with what comes of it in its channel, if it has one. -/
def trace (d : Demux) : List (Input F) → List (F × Option Outcome)
  | [] => []
  | .frame f :: inputs => (f, (d.process f).2) :: (d.process f).1.trace inputs
  | .reset :: inputs => d.reset.trace inputs

/-- What comes of the frames of one virtual channel. -/
def traceOf (d : Demux) (vcid : Nat) (inputs : List (Input F)) : List (F × Option Outcome) :=
  (d.trace inputs).filter (ChannelFrame.vcid ·.1 = vcid)

/-- All that listeners are told, those of all channels. -/
def notifications (d : Demux) (inputs : List (Input F)) : List (Notification F) :=
  (d.trace inputs).flatMap fun t => t.2.elim [] (·.deliveries t.1)

/-- All that listeners are told about one virtual channel. -/
def notificationsOf (d : Demux) (vcid : Nat) (inputs : List (Input F)) : List (Notification F) :=
  (d.notifications inputs).filter (·.vcid = vcid)

/-- The frames that the handler is called with. -/
def handled (d : Demux) : List (Input F) → List F
  | [] => []
  | .frame f :: inputs =>
    if d.handles f then f :: (d.process f).1.handled inputs else (d.process f).1.handled inputs
  | .reset :: inputs => d.reset.handled inputs

/-- Whether `process` fails. It does not for a frame without a channel. -/
def result (d : Demux) (f : F) : Except Error Unit := (d.process f).2.elim (.ok ()) (·.result)

def Input.concerns (vcid : Nat) : Input F → Bool
  | .frame f => ChannelFrame.vcid f = vcid
  | .reset => true

/-- The frames of one virtual channel, and all resets. -/
def ownInputs (vcid : Nat) (inputs : List (Input F)) : List (Input F) :=
  inputs.filter (·.concerns vcid)

def Input.frame? : Input F → Option F
  | .frame f => some f
  | .reset => none

/-- The frames among the inputs. -/
def frames (inputs : List (Input F)) : List F := inputs.filterMap Input.frame?

theorem Input.concerns_frame {vcid : Nat} {f : F} (h : ChannelFrame.vcid f = vcid) :
    (frame f).concerns vcid = true := decide_eq_true h

theorem Input.not_concerns_frame {vcid : Nat} {f : F} (h : ChannelFrame.vcid f ≠ vcid) :
    ¬ (frame f).concerns vcid = true := by
  rw [concerns, decide_eq_true_eq]
  exact h

theorem ownInputs_of_eq {vcid : Nat} {f : F} (h : ChannelFrame.vcid f = vcid)
    (inputs : List (Input F)) :
    ownInputs vcid (.frame f :: inputs) = .frame f :: ownInputs vcid inputs :=
  List.filter_cons_of_pos (Input.concerns_frame h)

theorem ownInputs_of_ne {vcid : Nat} {f : F} (h : ChannelFrame.vcid f ≠ vcid)
    (inputs : List (Input F)) : ownInputs vcid (.frame f :: inputs) = ownInputs vcid inputs :=
  List.filter_cons_of_neg (Input.not_concerns_frame h)

theorem traceOf_of_eq (d : Demux) {vcid : Nat} {f : F} (h : ChannelFrame.vcid f = vcid)
    (inputs : List (Input F)) : d.traceOf vcid (.frame f :: inputs) =
      (f, (d.process f).2) :: (d.process f).1.traceOf vcid inputs :=
  List.filter_cons_of_pos (decide_eq_true h)

theorem traceOf_of_ne (d : Demux) {vcid : Nat} {f : F} (h : ChannelFrame.vcid f ≠ vcid)
    (inputs : List (Input F)) :
    d.traceOf vcid (.frame f :: inputs) = (d.process f).1.traceOf vcid inputs :=
  List.filter_cons_of_neg (by simpa using h)

end Demux

/-! ## A channel among frames of others -/

namespace Channel

open Demux

theorem strict_process (c : Channel) (f : F) : (c.process f).channel.strict = c.strict := by
  obtain ⟨_, _, _, h⟩ := c.process_keeps f
  rw [h]

/-- Frames of others leave a channel as it is. -/
theorem takeAll_own (c : Channel) (inputs : List (Input F)) :
    c.takeAll (ownInputs c.vcid inputs) = c.takeAll inputs := by
  induction inputs generalizing c with
  | nil => rfl
  | cons i inputs ih =>
    cases i with
    | reset => exact ih c.reset
    | frame f =>
      have hnext := ih (c.process f).channel
      by_cases hv : ChannelFrame.vcid f = c.vcid
      · rw [vcid_process] at hnext
        rw [ownInputs_of_eq hv]
        exact hnext
      · rw [(process_of_vcid_ne hv).1] at hnext
        rw [ownInputs_of_ne hv, hnext]
        show _ = (c.process f).channel.takeAll inputs
        rw [(process_of_vcid_ne hv).1]

/-- The outcomes for the channel's own frames are those that they have without the others. -/
theorem trace_own (c : Channel) (inputs : List (Input F)) :
    (c.trace inputs).filter (ChannelFrame.vcid ·.1 = c.vcid) =
      c.trace (ownInputs c.vcid inputs) := by
  induction inputs generalizing c with
  | nil => rfl
  | cons i inputs ih =>
    cases i with
    | reset => exact ih c.reset
    | frame f =>
      have hnext := ih (c.process f).channel
      by_cases hv : ChannelFrame.vcid f = c.vcid
      · rw [vcid_process] at hnext
        rw [ownInputs_of_eq hv, trace, List.filter_cons, if_pos (decide_eq_true hv), hnext, trace]
      · rw [(process_of_vcid_ne hv).1] at hnext
        rw [ownInputs_of_ne hv, trace, List.filter_cons, if_neg (by simpa using hv),
          (process_of_vcid_ne hv).1, hnext]

/-- A frame of another virtual channel has no events and is an error only for a strict channel. -/
theorem foreign_of_mem_trace {c : Channel} {inputs : List (Input F)} {t : F × Outcome}
    (ht : t ∈ c.trace inputs) (hv : ChannelFrame.vcid t.1 ≠ c.vcid) :
    t.2.events = [] ∧ t.2.result =
      if c.strict then .error (.vcidMismatch c.vcid (ChannelFrame.vcid t.1)) else .ok () := by
  induction inputs generalizing c with
  | nil => cases ht
  | cons i inputs ih =>
    cases i with
    | reset => exact ih (c := c.reset) ht hv
    | frame f =>
      rcases List.mem_cons.mp ht with rfl | ht
      · rw [process, if_pos hv]
        exact ⟨rfl, rfl⟩
      · have hnext := ih ht (by rwa [vcid_process])
        rwa [vcid_process, strict_process] at hnext

theorem notifications_own (c : Channel) (inputs : List (Input F)) :
    c.notifications (ownInputs c.vcid inputs) = c.notifications inputs := by
  rw [notifications, notifications, ← trace_own]
  have hforeign := fun t (ht : t ∈ c.trace inputs) hv => (foreign_of_mem_trace ht hv).1
  generalize c.trace inputs = ts at hforeign ⊢
  induction ts with
  | nil => rfl
  | cons t ts ih =>
    have hrest := ih fun t ht => hforeign t (List.mem_cons_of_mem _ ht)
    rw [List.filter_cons, List.flatMap_cons, ← hrest]
    by_cases hv : ChannelFrame.vcid t.1 = c.vcid
    · rw [if_pos (decide_eq_true hv)]
      rfl
    · rw [if_neg (by simpa using hv), Outcome.deliveries, hforeign t List.mem_cons_self hv]
      rfl

theorem vcid_takeAll (c : Channel) (inputs : List (Demux.Input F)) :
    (c.takeAll inputs).vcid = c.vcid := by
  induction inputs generalizing c with
  | nil => rfl
  | cons i inputs ih =>
    refine (ih (c.take i)).trans ?_
    cases i with
    | reset => rfl
    | frame f => exact c.vcid_process f

/-- What makes a frame of the channel fail is in the frame. -/
theorem error_of_process {c : Channel} {f : F} {e : Error} (hv : ChannelFrame.vcid f = c.vcid)
    (h : (c.process f).result = .error e) :
    e = .syncFlag ∨ ChannelFrame.packetField f = .error e ∨
      ChannelFrame.bitstream f = .error e := by
  have hpackets {c : Channel} {kind : PacketKind} {gap : Bool}
      (h : (c.processPackets kind f gap).result = .error e) :
      ChannelFrame.packetField f = .error e := by
    rw [processPackets] at h
    dsimp only at h
    split at h
    · cases h
    split at h
    · cases h
      assumption
    · cases h
  have hbitstream {c : Channel} (h : (c.processBitstream f).result = .error e) :
      e = .syncFlag ∨ ChannelFrame.bitstream f = .error e := by
    rw [processBitstream] at h
    split at h
    · cases h
    split at h
    · cases h
      exact .inl rfl
    split at h
    · cases h
      exact .inr ‹_›
    · cases h
  rw [process, if_neg (not_not_intro hv)] at h
  dsimp only at h
  rw [processContents] at h
  split at h
  · cases h
  · rcases hbitstream h with h | h
    · exact .inl h
    · exact .inr (.inr h)
  · exact .inr (.inl (hpackets h))
  · exact .inr (.inl (hpackets h))

end Channel

/-! ## A channel behind a demultiplexer -/

namespace Demux

variable {d : Demux} {v : Nat} {c : Channel} {f : F}

theorem process_of_channel? (h : d.channel? (ChannelFrame.vcid f) = some c) :
    d.process f =
      (d.modify (ChannelFrame.vcid f) fun _ => (c.process f).channel, some (c.process f)) := by
  rw [process]
  dsimp only
  rw [h]

theorem process_of_none (h : d.channel? (ChannelFrame.vcid f) = none) :
    d.process f = ({ d with unrouted := d.unrouted + 1 }, none) := by
  rw [process]
  dsimp only
  rw [h]

/-- A frame changes the channel of its number, as it changes the channel alone, and no other. -/
theorem channel?_process (d : Demux) (f : F) (v : Nat) : (d.process f).1.channel? v =
    if ChannelFrame.vcid f = v then (d.channel? v).map fun c => (c.process f).channel
    else d.channel? v := by
  cases hc : d.channel? (ChannelFrame.vcid f) with
  | none =>
    rw [process_of_none hc]
    split
    · subst v
      exact hc.trans (by rw [hc]; rfl)
    · rfl
  | some c =>
    rw [process_of_channel? hc, channel?_modify]
    split
    · subst v
      rw [hc]
      rfl
    · rfl

theorem channel?_take (d : Demux) (i : Input F) (v : Nat) : (d.take i).channel? v =
    if i.concerns v then (d.channel? v).map (·.take i) else d.channel? v := by
  cases i with
  | reset => exact d.channel?_reset v
  | frame f =>
    rw [take, channel?_process]
    by_cases hv : ChannelFrame.vcid f = v
    · rw [if_pos hv, if_pos (Input.concerns_frame hv)]
      rfl
    · rw [if_neg hv, if_neg (Input.not_concerns_frame hv)]

theorem isNone_channel?_take (d : Demux) (i : Input F) (v : Nat) :
    ((d.take i).channel? v).isNone = (d.channel? v).isNone := by
  rw [channel?_take]
  split
  · exact Option.isNone_map
  · rfl

/-- After any inputs, a channel is what its own ones make of it. -/
theorem channel?_takeAll (d : Demux) (inputs : List (Input F)) (v : Nat) :
    (d.takeAll inputs).channel? v = (d.channel? v).map (·.takeAll (ownInputs v inputs)) := by
  induction inputs generalizing d with
  | nil => exact (Option.map_id_apply ..).symm
  | cons i inputs ih =>
    refine (ih (d.take i)).trans ?_
    rw [channel?_take, ownInputs, ownInputs, List.filter_cons]
    split
    · exact Option.map_map _ _ _
    · rfl

/-- What comes of the frames of a channel is what comes of them if the channel is alone. -/
theorem traceOf_eq (d : Demux) (inputs : List (Input F)) (v : Nat) : d.traceOf v inputs =
    match d.channel? v with
    | some c => (c.trace (ownInputs v inputs)).map fun t => (t.1, some t.2)
    | none => (frames (ownInputs v inputs)).map fun f => (f, none) := by
  induction inputs generalizing d with
  | nil => cases d.channel? v <;> rfl
  | cons i inputs ih =>
    cases i with
    | reset =>
      refine (ih d.reset).trans ?_
      rw [channel?_reset]
      cases d.channel? v <;> rfl
    | frame f =>
      by_cases hv : ChannelFrame.vcid f = v
      · subst hv
        rw [traceOf_of_eq d rfl, ownInputs_of_eq rfl, ih, channel?_process, if_pos rfl]
        cases hc : d.channel? (ChannelFrame.vcid f) with
        | none =>
          rw [process_of_none hc]
          rfl
        | some c =>
          rw [process_of_channel? hc]
          rfl
      · rw [traceOf_of_ne d hv, ownInputs_of_ne hv, ih, channel?_process, if_neg hv]

/-- A frame is unrouted exactly if there is no channel under its number, which no input changes. -/
theorem unrouted_takeAll (d : Demux) (inputs : List (Input F)) : (d.takeAll inputs).unrouted =
    d.unrouted + (frames inputs).countP fun f => (d.channel? (ChannelFrame.vcid f)).isNone := by
  induction inputs generalizing d with
  | nil => rfl
  | cons i inputs ih =>
    refine (ih (d.take i)).trans ?_
    simp only [isNone_channel?_take]
    cases i with
    | reset => rfl
    | frame f =>
      rw [show frames (.frame f :: inputs) = f :: frames inputs from rfl, List.countP_cons, take]
      cases hc : d.channel? (ChannelFrame.vcid f) with
      | none =>
        rw [process_of_none hc, Option.isNone_none, if_pos rfl]
        dsimp only
        omega
      | some c =>
        rw [process_of_channel? hc]
        rfl

theorem handler_take (d : Demux) (i : Input F) : (d.take i).handler = d.handler := by
  cases i with
  | reset => rfl
  | frame f =>
    rw [take]
    cases hc : d.channel? (ChannelFrame.vcid f) with
    | none => rw [process_of_none hc]
    | some c =>
      rw [process_of_channel? hc]
      rfl

theorem handled_eq (d : Demux) (inputs : List (Input F)) : d.handled inputs =
    if d.handler then (frames inputs).filter fun f => (d.channel? (ChannelFrame.vcid f)).isNone
    else [] := by
  induction inputs generalizing d with
  | nil => exact (ite_self _).symm
  | cons i inputs ih =>
    have hnext := ih (d.take i)
    simp only [isNone_channel?_take, handler_take] at hnext
    cases i with
    | reset => exact hnext
    | frame f =>
      rw [handled, handles, show frames (.frame f :: inputs) = f :: frames inputs from rfl,
        List.filter_cons, show (d.process f).1.handled inputs = _ from hnext]
      cases d.handler <;> cases (d.channel? (ChannelFrame.vcid f)).isNone <;> rfl

/-! ## Channels under their own numbers -/

/-- Every channel is held under its own number. -/
def Keyed (d : Demux) : Prop := ∀ v c, d.channel? v = some c → c.vcid = v

namespace Keyed

theorem insert (h : d.Keyed) (c : Channel) : (d.insert c).Keyed := by
  intro v c' hc
  rw [channel?_insert] at hc
  split at hc
  · cases hc
    assumption
  · exact h v c' hc

theorem modify (h : d.Keyed) (vcid : Nat) {change : Channel → Channel}
    (hchange : ∀ c, (change c).vcid = c.vcid) : (d.modify vcid change).Keyed := by
  intro v c hc
  rw [channel?_modify] at hc
  split at hc
  · obtain ⟨c', hc', rfl⟩ := Option.map_eq_some_iff.mp hc
    exact (hchange c').trans (h v c' hc')
  · exact h v c hc

/-- A channel that is changed in place to one of another number gets frames that it refuses. -/
example :
    let d := (ofChannels [{ vcid := 1, mode := .data, strict := true }] false).modify 1
      fun c => { c with vcid := 2 }
    d.result (Tm.Frame.plain 1 0 0 []) = .error (.vcidMismatch 2 1) := rfl

theorem take (h : d.Keyed) (i : Input F) : (d.take i).Keyed := by
  intro v c hc
  rw [channel?_take] at hc
  split at hc
  · obtain ⟨c', hc', rfl⟩ := Option.map_eq_some_iff.mp hc
    exact (Channel.vcid_takeAll c' [i]).trans (h v c' hc')
  · exact h v c hc

theorem takeAll (h : d.Keyed) (inputs : List (Input F)) : (d.takeAll inputs).Keyed := by
  induction inputs generalizing d with
  | nil => exact h
  | cons i inputs ih => exact ih (h.take i)

/-- What listeners are told with a number is what comes of the frames of this number. -/
theorem notificationsOf_eq (h : d.Keyed) (inputs : List (Input F)) (v : Nat) :
    d.notificationsOf v inputs =
      (d.traceOf v inputs).flatMap fun t => t.2.elim [] (·.deliveries t.1) := by
  induction inputs generalizing d with
  | nil => rfl
  | cons i inputs ih =>
    have hnext := ih (h.take i)
    cases i with
    | reset => exact hnext
    | frame f =>
      have hsplit : d.notificationsOf v (.frame f :: inputs) =
          ((d.process f).2.elim [] (·.deliveries f)).filter (·.vcid = v) ++
            (d.process f).1.notificationsOf v inputs := List.filter_append _ _
      rw [hsplit, show (d.process f).1.notificationsOf v inputs = _ from hnext]
      have hvcid : ∀ n ∈ (d.process f).2.elim [] (·.deliveries f), n.vcid = ChannelFrame.vcid f := by
        intro n hn
        cases hc : d.channel? (ChannelFrame.vcid f) with
        | none =>
          rw [process_of_none hc] at hn
          cases hn
        | some c =>
          rw [process_of_channel? hc] at hn
          rw [Outcome.vcid_of_mem_deliveries hn, c.vcid_process, h _ c hc]
      by_cases hv : ChannelFrame.vcid f = v
      · rw [traceOf_of_eq d hv, List.flatMap_cons, List.filter_eq_self.mpr fun n hn =>
          decide_eq_true ((hvcid n hn).trans hv)]
        rfl
      · rw [traceOf_of_ne d hv, List.filter_eq_nil_iff.mpr fun n hn => by
          rw [decide_eq_true_eq, hvcid n hn]; exact hv]
        rfl

theorem error_of_result (h : d.Keyed) {e : Error} (he : d.result f = .error e) :
    e = .syncFlag ∨ ChannelFrame.packetField f = .error e ∨
      ChannelFrame.bitstream f = .error e := by
  rw [result] at he
  cases hc : d.channel? (ChannelFrame.vcid f) with
  | none =>
    rw [process_of_none hc] at he
    cases he
  | some c =>
    rw [process_of_channel? hc] at he
    exact Channel.error_of_process (h _ c hc).symm he

end Keyed

/-- The demultiplexer holds these channels, each under its own number. -/
structure Holds (d : Demux) (cs : List Channel) : Prop where
  distinct : (cs.map (·.vcid)).Nodup
  found : ∀ c ∈ cs, d.channel? c.vcid = some c
  others : ∀ v, v ∉ cs.map (·.vcid) → d.channel? v = none

theorem channel?_foldl_insert (cs : List Channel) (d : Demux) (v : Nat) :
    (cs.foldl insert d).channel? v = (cs.reverse.find? (·.vcid == v)).or (d.channel? v) := by
  induction cs generalizing d with
  | nil => rfl
  | cons c cs ih =>
    rw [List.foldl_cons, ih, channel?_insert, List.reverse_cons, List.find?_append, Option.or_assoc]
    congr 1
    by_cases hv : c.vcid = v <;> simp [hv]

/-- Channels of distinct numbers do not replace each other. -/
theorem holds_ofChannels {cs : List Channel} (hdistinct : (cs.map (·.vcid)).Nodup)
    (handler : Bool) : (ofChannels cs handler).Holds cs where
  distinct := hdistinct
  found c hc := by
    rw [ofChannels, channel?_foldl_insert]
    cases hfind : cs.reverse.find? (·.vcid == c.vcid) with
    | none => simpa using List.find?_eq_none.mp hfind c (List.mem_reverse.mpr hc)
    | some c' =>
      have hmem := List.mem_reverse.mp (List.mem_of_find?_eq_some hfind)
      have hvcid : c'.vcid = c.vcid := by simpa using List.find?_some hfind
      rw [List.inj_on_of_nodup_map hdistinct hmem hc hvcid]
      rfl
  others v hv := by
    rw [ofChannels, channel?_foldl_insert]
    have hnone : cs.reverse.find? (·.vcid == v) = none := by
      rw [List.find?_eq_none]
      intro c hc hvcid
      exact hv (List.mem_map.mpr ⟨c, List.mem_reverse.mp hc, by simpa using hvcid⟩)
    rw [hnone]
    rfl

namespace Holds

variable {cs : List Channel}

theorem keyed (h : d.Holds cs) : d.Keyed := by
  intro v c hc
  by_cases hv : v ∈ cs.map (·.vcid)
  · obtain ⟨c', hc', rfl⟩ := List.mem_map.mp hv
    rw [h.found c' hc'] at hc
    cases hc
    rfl
  · rw [h.others v hv] at hc
    cases hc

theorem isNone_channel? (h : d.Holds cs) (v : Nat) :
    (d.channel? v).isNone = decide (v ∉ cs.map (·.vcid)) := by
  by_cases hv : v ∈ cs.map (·.vcid)
  · obtain ⟨c, hc, rfl⟩ := List.mem_map.mp hv
    rw [h.found c hc, decide_eq_false (not_not_intro hv)]
    rfl
  · rw [h.others v hv, decide_eq_true hv]
    rfl

/-- The channels stay where they are. -/
theorem takeAll (h : d.Holds cs) (inputs : List (Input F)) :
    (d.takeAll inputs).Holds (cs.map fun c => c.takeAll (ownInputs c.vcid inputs)) := by
  have hvcids : (cs.map fun c => c.takeAll (ownInputs c.vcid inputs)).map (·.vcid) =
      cs.map (·.vcid) := by
    rw [List.map_map]
    exact List.map_congr_left fun c _ => c.vcid_takeAll _
  refine ⟨hvcids ▸ h.distinct, fun c hc => ?_, fun v hv => ?_⟩
  · obtain ⟨before, hbefore, rfl⟩ := List.mem_map.mp hc
    rw [before.vcid_takeAll, channel?_takeAll, h.found before hbefore]
    rfl
  · rw [hvcids] at hv
    rw [channel?_takeAll, h.others v hv]
    rfl

end Holds

/-- What the channels of a demultiplexer do with any inputs does not depend on each other. -/
structure Separates (d : Demux) (cs : List Channel) (inputs : List (Input F)) : Prop where
  /-- In the end, every channel is what it is alone after the inputs that concern it. -/
  final : (d.takeAll inputs).Holds (cs.map fun c => c.takeAll (ownInputs c.vcid inputs))
  /-- Its frames come to what they come to if it is alone, and its listeners are told the same. -/
  alone : ∀ c ∈ cs,
    d.traceOf c.vcid inputs = (c.trace (ownInputs c.vcid inputs)).map (fun t => (t.1, some t.2)) ∧
    d.notificationsOf c.vcid inputs = c.notifications (ownInputs c.vcid inputs)
  /-- It does the same if it is given all inputs, except that it may refuse those of others. -/
  unsorted : ∀ c ∈ cs,
    c.takeAll inputs = c.takeAll (ownInputs c.vcid inputs) ∧
    (c.trace inputs).filter (ChannelFrame.vcid ·.1 = c.vcid) = c.trace (ownInputs c.vcid inputs) ∧
    c.notifications inputs = c.notifications (ownInputs c.vcid inputs) ∧
    ∀ t ∈ c.trace inputs, ChannelFrame.vcid t.1 ≠ c.vcid → t.2.result =
      if c.strict then .error (.vcidMismatch c.vcid (ChannelFrame.vcid t.1)) else .ok ()
  unrouted : (d.takeAll inputs).unrouted =
    d.unrouted + (frames inputs).countP (ChannelFrame.vcid · ∉ cs.map (·.vcid))
  handled : d.handled inputs =
    if d.handler then (frames inputs).filter (ChannelFrame.vcid · ∉ cs.map (·.vcid)) else []
  /-- A frame without a channel is no error and changes no channel. -/
  ignored : ∀ earlier f later, inputs = earlier ++ .frame f :: later →
    ChannelFrame.vcid f ∉ cs.map (·.vcid) →
      (d.takeAll earlier).result f = .ok () ∧
      ((d.takeAll earlier).process f).1.channels = (d.takeAll earlier).channels
  /-- The order among inputs of different channels does not matter. -/
  interleaved : ∀ c ∈ cs, ∀ others, ownInputs c.vcid others = ownInputs c.vcid inputs →
    (d.takeAll others).channel? c.vcid = (d.takeAll inputs).channel? c.vcid ∧
    d.traceOf c.vcid others = d.traceOf c.vcid inputs ∧
    d.notificationsOf c.vcid others = d.notificationsOf c.vcid inputs
  /-- A frame that fails does so for what is in it. -/
  failed : ∀ earlier f later, inputs = earlier ++ .frame f :: later →
    ∀ e, (d.takeAll earlier).result f = .error e →
      e = .syncFlag ∨ ChannelFrame.packetField f = .error e ∨ ChannelFrame.bitstream f = .error e

theorem separates_inputs {cs : List Channel} (h : d.Holds cs) (inputs : List (Input F)) :
    d.Separates cs inputs where
  final := h.takeAll inputs
  alone c hc := by
    rw [h.keyed.notificationsOf_eq, traceOf_eq, h.found c hc, List.flatMap_map]
    exact ⟨rfl, rfl⟩
  unsorted c _ :=
    ⟨(c.takeAll_own inputs).symm, c.trace_own inputs, (c.notifications_own inputs).symm,
      fun t ht hv => (Channel.foreign_of_mem_trace ht hv).2⟩
  unrouted := by
    rw [unrouted_takeAll]
    simp only [h.isNone_channel?]
  handled := by
    rw [handled_eq]
    simp only [h.isNone_channel?]
  ignored earlier f later _ hf := by
    have hnone : (d.takeAll earlier).channel? (ChannelFrame.vcid f) = none := by
      rw [channel?_takeAll, h.others _ hf]
      rfl
    rw [result, process_of_none hnone]
    exact ⟨rfl, rfl⟩
  interleaved c hc others hothers := by
    have htrace : d.traceOf c.vcid others = d.traceOf c.vcid inputs := by
      rw [traceOf_eq, traceOf_eq, hothers]
    refine ⟨?_, htrace, ?_⟩
    · rw [channel?_takeAll, channel?_takeAll, hothers]
    · rw [h.keyed.notificationsOf_eq, h.keyed.notificationsOf_eq, htrace]
  failed earlier _ _ _ _ he := (h.keyed.takeAll earlier).error_of_result he

end Demux

/-! ## Kinds of frame -/

theorem ChannelFrame.packetField_error {f : F} {e : Error} (h : packetField f = .error e) :
    packetZone f = .error e ∨ firstPacket f = .error e := by
  rcases bind_eq_error_iff.mp h with h | ⟨zone, -, h⟩
  · exact .inl h
  · rcases bind_eq_error_iff.mp h with h | ⟨_, -, h⟩
    · exact .inr h
    · cases h

theorem Tm.Frame.error_of_contents {f : Tm.Frame} {e : Error}
    (h : ChannelFrame.packetField f = .error e ∨ ChannelFrame.bitstream f = .error e) :
    e = .idleFrame ∨ e = .syncFlag ∨ e = .accessMode .tm := by
  rcases h with h | h
  · rcases ChannelFrame.packetField_error h with h | h
    · cases h
    · have h : f.firstPacket = .error e := h
      rw [firstPacket] at h
      split at h
      · exact .inl (Except.error.inj h).symm
      split at h
      · exact .inr (.inl (Except.error.inj h).symm)
      · split at h <;> cases h
  · exact .inr (.inr (Except.error.inj h).symm)

theorem Aos.Frame.error_of_pointerFor {f : Aos.Frame} {required : UserDataType} {field : Field}
    {e : Error} (h : f.pointerFor required field = .error e) :
    e = .userDataType (some field) required f.userDataType := by
  rw [pointerFor] at h
  split at h
  · cases h
  · exact (Except.error.inj h).symm

theorem Aos.Frame.error_of_contents {f : Aos.Frame} {e : Error}
    (h : ChannelFrame.packetField f = .error e ∨ ChannelFrame.bitstream f = .error e) :
    e = .idleFrame ∨ ∃ field required, e = .userDataType (some field) required f.userDataType := by
  have hzone {required : UserDataType} {field : Field}
      (h : (do discard (f.pointerFor required field); return f.pduZone) = .error e) :
      ∃ field required, e = .userDataType (some field) required f.userDataType := by
    cases hp : f.pointerFor required field with
    | error e' =>
      rw [hp] at h
      cases h
      exact ⟨_, _, error_of_pointerFor hp⟩
    | ok pointer =>
      rw [hp] at h
      cases h
  rcases h with h | h
  · rcases ChannelFrame.packetField_error h with h | h
    · exact .inr (hzone h)
    · have h : f.firstPacket = .error e := h
      rw [firstPacket] at h
      split at h
      · exact .inl (Except.error.inj h).symm
      · rcases bind_eq_error_iff.mp h with h | ⟨_, -, h⟩
        · exact .inr ⟨_, _, error_of_pointerFor h⟩
        · cases h
  · rcases bind_eq_error_iff.mp h with h | ⟨_, -, h⟩
    · exact .inr (hzone h)
    · rcases bind_eq_error_iff.mp h with h | ⟨_, -, h⟩
      · rcases bind_eq_error_iff.mp h with h | ⟨_, -, h⟩
        · exact .inr ⟨_, _, error_of_pointerFor h⟩
        · split at h
          · cases h
          split at h <;> cases h
      · cases h

theorem Tc.Frame.error_of_contents {f : Tc.Frame} {e : Error}
    (h : ChannelFrame.packetField f = .error e ∨ ChannelFrame.bitstream f = .error e) :
    e = .idleFrame ∨ e = .accessMode .tc := by
  rcases h with h | h
  · rcases ChannelFrame.packetField_error h with h | h
    · cases h
    · have h : f.firstPacket = .error e := h
      rw [firstPacket] at h
      split at h
      · exact .inl (Except.error.inj h).symm
      · split at h <;> cases h
  · exact .inr (Except.error.inj h).symm

/-- The channels of a demultiplexer do not interfere, whatever they are and whatever it is given,
and it never refuses a frame as one of another channel. -/
theorem Demux.separates :
    (∀ (cs : List Channel) (handler : Bool), (cs.map (·.vcid)).Nodup →
      (ofChannels cs handler).Holds cs) ∧
    (∀ (F : Type) [ChannelFrame F] (d : Demux) (cs : List Channel), d.Holds cs →
      ∀ inputs : List (Input F), d.Separates cs inputs) ∧
    (∀ (d : Demux) (cs : List Channel), d.Holds cs →
      ∀ (inputs : List (Input Tm.Frame)) (f : Tm.Frame) (expected actual : Nat),
        (d.takeAll inputs).result f ≠ .error (.vcidMismatch expected actual)) ∧
    (∀ (d : Demux) (cs : List Channel), d.Holds cs →
      ∀ (inputs : List (Input Aos.Frame)) (f : Aos.Frame) (expected actual : Nat),
        (d.takeAll inputs).result f ≠ .error (.vcidMismatch expected actual)) ∧
    ∀ (d : Demux) (cs : List Channel), d.Holds cs →
      ∀ (inputs : List (Input Tc.Frame)) (f : Tc.Frame) (expected actual : Nat),
        (d.takeAll inputs).result f ≠ .error (.vcidMismatch expected actual) := by
  refine ⟨fun _ handler h => holds_ofChannels h handler, fun F _ _ _ h => separates_inputs h,
    fun d cs h inputs f expected actual he => ?_, fun d cs h inputs f expected actual he => ?_,
    fun d cs h inputs f expected actual he => ?_⟩
  · rcases (h.keyed.takeAll inputs).error_of_result he with he | he
    · cases he
    · rcases Tm.Frame.error_of_contents he with he | he | he <;> cases he
  · rcases (h.keyed.takeAll inputs).error_of_result he with he | he
    · cases he
    · rcases Aos.Frame.error_of_contents he with he | ⟨_, _, he⟩ <;> cases he
  · rcases (h.keyed.takeAll inputs).error_of_result he with he | he
    · cases he
    · rcases Tc.Frame.error_of_contents he with he | he <;> cases he

/-- Two channels, one with a packet in two frames, a frame of a third number in between, and a
reset. -/
theorem Demux.separates_two :
    let packets : Channel := { vcid := 1, mode := .packet, strict := true, listeners := [0] }
    let data : Channel := { vcid := 2, mode := .data, listeners := [1] }
    let d := ofChannels [packets, data] true
    let unrouted := Tm.Frame.plain 3 0 0 [0xee]
    let first := Tm.Frame.plain 1 7 0 [0x00, 0x01, 0xc0, 0x00, 0x00, 0x01, 0xaa]
    let second := Tm.Frame.plain 1 8 0x7ff [0xbb]
    let later := Tm.Frame.plain 2 9 0 [0xdd]
    let inputs := [.frame first, .frame (Tm.Frame.plain 2 5 0 [0xcc]), .frame unrouted,
      .frame second, .reset, .frame later]
    d.Holds [packets, data] ∧
    (d.notificationsOf 1 inputs).map (fun n => (n.listener, n.vcid, n.event)) = [
      (0, 1, .frameReceived), (0, 1, .frameReceived), (0, 1, .packetExtracted .space
        [0x00, 0x01, 0xc0, 0x00, 0x00, 0x01, 0xaa, 0xbb] true)] ∧
    d.traceOf 2 inputs = (data.trace (ownInputs 2 inputs)).map (fun t => (t.1, some t.2)) ∧
    d.handled inputs = [unrouted] ∧ (d.takeAll inputs).unrouted = 1 ∧
    ∀ expected actual, (d.takeAll inputs).result first ≠ .error (.vcidMismatch expected actual) := by
  intro packets data d unrouted first second later inputs
  have hholds : d.Holds [packets, data] := separates.1 [packets, data] true (by decide)
  have hseparates := separates.2.1 Tm.Frame d [packets, data] hholds inputs
  have hpackets := (hseparates.alone packets (by simp)).2
  have hdata := (hseparates.alone data (by simp)).1
  refine ⟨hholds, ?_, hdata, ?_, ?_, separates.2.2.1 d _ hholds inputs first⟩
  · rw [show d.notificationsOf 1 inputs = _ from hpackets]
    decide +kernel
  · exact hseparates.handled
  · exact hseparates.unrouted

end SpaceLink
