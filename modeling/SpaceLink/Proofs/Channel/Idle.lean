import Mathlib.Data.List.Forall2
import SpaceLink.Proofs.Channel.Gaps

/-!
# Idle frames

A channel takes from an idle frame only that frames are missing before it, and keeps that for the
next frame that is not idle. `Channel.reports` are what comes of the frames that are not idle, each
with whether a gap has been reported since the one before it, on whatever frames that was. They are
those of `replay`, which is told these gaps and what is in the packet fields, and nothing of any
idle frame (`Channel.taken_reports`). Two runs that agree in both therefore take the same
(`taken_eq_of_gaps`).
-/

namespace SpaceLink

/-- What a channel takes from a frame: the packets it hands out, whether the frame could be used,
and what is in flight afterwards. -/
structure Taken where
  packets : List Extracted
  result : Except Error Unit
  inFlight? : Option PartialPacket

def Outcome.taken (o : Outcome) : Taken :=
  { packets := o.packets, result := o.result, inFlight? := o.channel.inFlight? }

/-- A frame that is not idle. -/
structure Report (F : Type) where
  frame : F
  /-- Missing frames have been reported after the previous one, for this one at the latest. -/
  gap : Bool
  outcome : Outcome

/-- What a packet field gives if frames are missing before it or not. -/
def takeField (kind : PacketKind) (inFlight? : Option PartialPacket) (gap : Bool)
    (field : Except Error (Bytes × Option Nat)) : Taken :=
  let cutOff := if gap then (inFlight?.bind (·.close?)).toList else []
  let continued := if gap then none else inFlight?
  match field with
  | .error e => { packets := cutOff, result := .error e, inFlight? := continued }
  | .ok (zone, start?) =>
    let (packets, inFlight?) := advance kind continued zone start?
    { packets := cutOff ++ packets, result := .ok (), inFlight? }

/-- What packet fields give one after the other, each with whether frames are missing before it. -/
def replay (kind : PacketKind) (inFlight? : Option PartialPacket) :
    List (Bool × Except Error (Bytes × Option Nat)) → List Taken
  | [] => []
  | (gap, field) :: rest =>
    let taken := takeField kind inFlight? gap field
    taken :: replay kind taken.inFlight? rest

/-- Without a packet in flight it does not matter that frames are missing. -/
theorem takeField_none (kind : PacketKind) (gap gap' : Bool)
    (field : Except Error (Bytes × Option Nat)) :
    takeField kind none gap field = takeField kind none gap' field := by
  cases gap <;> cases gap' <;> rfl

namespace Channel

variable {F : Type} [ChannelFrame F]

/-- What comes of the frames that are not idle, if a gap has been reported since the previous one of
them or not. -/
def reports (c : Channel) (gap : Bool) : List F → List (Report F)
  | [] => []
  | f :: fs =>
    let outcome := c.process f
    let gap := gap || outcome.reportsGap
    if ChannelFrame.isIdle f then outcome.channel.reports gap fs
    else { frame := f, gap, outcome } :: outcome.channel.reports false fs

/-- No idle frame fails, has packets or changes what is in flight. -/
def IgnoresIdle (c : Channel) (frames : List F) : Prop :=
  ∀ earlier f later, frames = earlier ++ f :: later → ChannelFrame.isIdle f = true →
    ((c.after earlier).process f).taken =
      { packets := [], result := .ok (), inFlight? := (c.after earlier).inFlight? }

theorem frame_reports (c : Channel) (gap : Bool) (fs : List F) :
    (c.reports gap fs).map (·.frame) = fs.filter (!ChannelFrame.isIdle ·) := by
  induction fs generalizing c gap with
  | nil => rfl
  | cons f fs ih =>
    rw [reports, List.filter_cons]
    cases ChannelFrame.isIdle f with
    | true => exact ih _ _
    | false => exact congrArg (f :: ·) (ih _ _)

/-- A frame is taken as its packet field is, and a gap before it has then had its effect. -/
theorem taken_process {c : Channel} {f : F} {kind : PacketKind} (hv : ChannelFrame.vcid f = c.vcid)
    (hm : c.mode = kind.mode) (hi : ChannelFrame.isIdle f = false) : (c.process f).taken =
      takeField kind c.inFlight? (c.missed f) (ChannelFrame.packetField f) ∧
      (c.process f).channel.pendingGap = false := by
  cases hz : ChannelFrame.packetField f with
  | error e =>
    obtain ⟨hchannel, hpackets, hresult⟩ := process_unusable hv hm hi hz
    rw [Outcome.taken, hchannel, hpackets, hresult]
    exact ⟨rfl, rfl⟩
  | ok field =>
    obtain ⟨hchannel, hpackets, hresult⟩ := process_zone hv hm hi hz
    rw [Outcome.taken, hchannel, hpackets, hresult]
    exact ⟨rfl, rfl⟩

/-- What is taken from the frames that are not idle depends on no others. The gap that the channel
keeps is what has been reported since the last of them. -/
theorem taken_reports (c : Channel) {kind : PacketKind} (hm : c.mode = kind.mode) {fs : List F}
    (hown : ∀ f ∈ fs, ChannelFrame.vcid f = c.vcid) :
    (c.reports c.pendingGap fs).map (·.outcome.taken) = replay kind c.inFlight?
      ((c.reports c.pendingGap fs).map fun r => (r.gap, ChannelFrame.packetField r.frame)) := by
  induction fs generalizing c with
  | nil => rfl
  | cons f fs ih =>
    have hv := hown f List.mem_cons_self
    obtain ⟨_, _, _, hkeeps⟩ := c.process_keeps f
    have hnext := ih (c.process f).channel (by rw [hkeeps]; exact hm)
      (by rw [hkeeps]; exact fun g hg => hown g (List.mem_cons_of_mem f hg))
    rw [reports, reportsGap_process hv hm]
    cases hi : ChannelFrame.isIdle f with
    | true =>
      rw [(process_idle hv hm hi).1] at hnext ⊢
      exact hnext
    | false =>
      obtain ⟨htaken, hpending⟩ := taken_process hv hm hi
      rw [hpending] at hnext
      rw [if_neg Bool.false_ne_true, List.map_cons, List.map_cons, hnext, replay]
      show _ = takeField kind c.inFlight? (c.missed f) _ ::
        replay kind (takeField kind c.inFlight? (c.missed f) _).inFlight? _
      rw [← htaken]
      rfl

theorem ignoresIdle {c : Channel} {kind : PacketKind} (hm : c.mode = kind.mode) {fs : List F}
    (hown : ∀ f ∈ fs, ChannelFrame.vcid f = c.vcid) : c.IgnoresIdle fs := by
  rintro earlier f later rfl hi
  have hv := hown f (List.mem_append_right _ List.mem_cons_self)
  obtain ⟨_, _, _, hafter⟩ := c.after_keeps earlier
  have hv' : ChannelFrame.vcid f = (c.after earlier).vcid := by rw [hafter, hv]
  have hm' : (c.after earlier).mode = kind.mode := by rw [hafter, hm]
  obtain ⟨hchannel, hpackets, hresult⟩ := process_idle hv' hm' hi
  rw [Outcome.taken, hchannel, hpackets, hresult]

end Channel

/-- Packet fields with nothing in flight before them give the same whether frames are missing before
the first of them or not. -/
theorem replay_none {F G : Type} [ChannelFrame F] [ChannelFrame G] (kind : PacketKind)
    {rs : List (Report F)} {ss : List (Report G)}
    (hfields : rs.map (ChannelFrame.packetField ·.frame) =
      ss.map (ChannelFrame.packetField ·.frame))
    (hgaps : rs.tail.map (·.gap) = ss.tail.map (·.gap)) :
    replay kind none (rs.map fun r => (r.gap, ChannelFrame.packetField r.frame)) =
      replay kind none (ss.map fun s => (s.gap, ChannelFrame.packetField s.frame)) := by
  cases rs with
  | nil =>
    rw [List.map_eq_nil_iff.mp hfields.symm]
    rfl
  | cons r rs =>
    cases ss with
    | nil => cases hfields
    | cons s ss =>
      simp only [List.map_cons, List.cons.injEq] at hfields
      obtain ⟨hfirst, hfields⟩ := hfields
      rw [List.tail_cons, List.tail_cons] at hgaps
      have hrest := congrArg₂ List.zip hgaps hfields
      rw [List.zip_map', List.zip_map'] at hrest
      rw [List.map_cons, List.map_cons, replay, replay, takeField_none kind r.gap s.gap, hfirst]
      exact congrArg (fun rest => _ :: replay kind _ rest) hrest

/-- Of idle frames nothing is seen but the gaps that are reported on them. If the frames of two runs
that are not idle have the same packet fields, and gaps are reported between the same of them, a new
channel takes the same from each in both runs, and idle frames change nothing that it has. -/
theorem taken_eq_of_gaps {F G : Type} [ChannelFrame F] [ChannelFrame G] (vcid : Nat)
    (kind : PacketKind) (strict strict' : Bool) (listeners listeners' : List Nat)
    (frames : List F) (others : List G)
    (hframes : ∀ f ∈ frames, ChannelFrame.vcid f = vcid)
    (hothers : ∀ g ∈ others, ChannelFrame.vcid g = vcid) :
    let c := Channel.fresh vcid kind strict listeners
    let d := Channel.fresh vcid kind strict' listeners'
    List.Forall₂ (fun f g => ChannelFrame.packetZone f = ChannelFrame.packetZone g ∧
        ChannelFrame.firstPacket f = ChannelFrame.firstPacket g)
      (frames.filter (!ChannelFrame.isIdle ·)) (others.filter (!ChannelFrame.isIdle ·)) →
    (c.reports false frames).tail.map (·.gap) = (d.reports false others).tail.map (·.gap) →
      (c.reports false frames).map (·.outcome.taken) =
        (d.reports false others).map (·.outcome.taken) ∧
      c.IgnoresIdle frames ∧ d.IgnoresIdle others := by
  intro c d hfields hgaps
  have hm : ∀ strict listeners, (Channel.fresh vcid kind strict listeners).mode = kind.mode :=
    fun _ _ => rfl
  refine ⟨?_, Channel.ignoresIdle (hm _ _) hframes, Channel.ignoresIdle (hm _ _) hothers⟩
  have hfields : (c.reports false frames).map (ChannelFrame.packetField ·.frame) =
      (d.reports false others).map (ChannelFrame.packetField ·.frame) := by
    have hequal := hfields.imp fun f g (h : _ ∧ _) =>
      show ChannelFrame.packetField f = ChannelFrame.packetField g by
        rw [ChannelFrame.packetField, ChannelFrame.packetField, h.1, h.2]
    rw [← c.frame_reports false, ← d.frame_reports false, List.forall₂_map_left_iff,
      List.forall₂_map_right_iff] at hequal
    rw [← List.forall₂_eq_eq_eq, List.forall₂_map_left_iff, List.forall₂_map_right_iff]
    exact hequal
  exact (c.taken_reports (hm _ _) hframes).trans
    ((replay_none kind hfields hgaps).trans (d.taken_reports (hm _ _) hothers).symm)

/-- Two frames are missing, in one run before an idle frame and in the other before the next one,
which in both cannot be used. -/
theorem taken_eq_of_gaps_moved :
    let bytes (count : UInt8) (sync : Bool) (pointer : Nat) (zone : Bytes) : Bytes :=
      Tm.Header.encode {
        version := 0, scid := 9, vcid := 5, ocfPresent := false, mcFrameCount := count
        vcFrameCount := count, secondaryHeaderPresent := false, sync, packetOrder := false
        segmentLengthId := 3, firstHeaderPointer := pointer } ++ zone
    let decoded := List.filterMap fun d => (Tm.Frame.decode d { fecfPresent := false }).toOption
    let frames := decoded [bytes 0 false 0 [0x00, 0x01, 0xc0, 0x00, 0x00, 0x01, 0xaa],
      bytes 3 false 0x7fe [0xff], bytes 4 true 0 [0xbb],
      bytes 5 false 1 [0xbb, 0x00, 0x01, 0xc0, 0x01, 0x00, 0x00, 0xcc]]
    let others := decoded [bytes 250 false 0x7fe [0xff, 0xff],
      bytes 253 false 0 [0x00, 0x01, 0xc0, 0x00, 0x00, 0x01, 0xaa], bytes 0 true 0 [0xbb],
      bytes 1 false 0x7fe [0xff], bytes 2 false 1 [0xbb, 0x00, 0x01, 0xc0, 0x01, 0x00, 0x00, 0xcc]]
    let c := Channel.fresh 5 .space false [0]
    let d := Channel.fresh 5 .space true []
    let packets : List (List Extracted) := [[],
      [{ bytes := [0x00, 0x01, 0xc0, 0x00, 0x00, 0x01, 0xaa], complete := false }],
      [{ bytes := [0x00, 0x01, 0xc0, 0x01, 0x00, 0x00, 0xcc], complete := true }]]
    (c.reports false frames).map (·.outcome.packets) = packets ∧
    (d.reports false others).map (·.outcome.packets) = packets := by
  intro bytes decoded frames others c d packets
  have h := taken_eq_of_gaps 5 .space false true [0] [] frames others (by decide +kernel)
    (by decide +kernel) (by decide +kernel) (by decide +kernel)
  have hpackets : (c.reports false frames).map (·.outcome.packets) = packets := by decide +kernel
  refine ⟨hpackets, ?_⟩
  have hequal := congrArg (List.map Taken.packets) h.1
  rw [List.map_map, List.map_map] at hequal
  exact hequal.symm.trans hpackets

end SpaceLink
