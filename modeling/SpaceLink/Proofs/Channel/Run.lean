import SpaceLink.Channel.Basic

/-!
# Runs of a channel

`Channel.outcomes` and `Channel.after` are what comes of several frames and the channel after them.
For a channel that reassembles packets, `Channel.process_idle`, `Channel.process_unusable` and
`Channel.process_zone` say all that taking one frame of its virtual channel does, in terms of what
the frame can continue (`Channel.continued`) and of what is cut off because frames are missing
before it (`Channel.cutOff`).
-/

namespace SpaceLink

/-- The packet that an event hands out. -/
def Event.packet? : Event → Option Extracted
  | .packetExtracted _ bytes complete => some { bytes, complete }
  | .frameReceived | .gapDetected _ | .dataExtracted _ | .bitstreamExtracted _ _ => none

/-- The event reports missing frames. -/
def Event.isGap : Event → Bool
  | .gapDetected _ => true
  | .frameReceived | .packetExtracted _ _ _ | .dataExtracted _ | .bitstreamExtracted _ _ => false

/-- The packets handed out, in order. -/
def Outcome.packets (o : Outcome) : List Extracted := o.events.filterMap Event.packet?

/-- Missing frames are reported. -/
def Outcome.reportsGap (o : Outcome) : Bool := o.events.any Event.isGap

/-- The access mode for a kind of packet. -/
def PacketKind.mode : PacketKind → AccessMode
  | .space => .packet
  | .encapsulation => .encapsulation

theorem ChannelFrame.packetField_eq_ok_iff {F : Type} [ChannelFrame F] {f : F} {zone : Bytes}
    {start? : Option Nat} :
    packetField f = .ok (zone, start?) ↔ packetZone f = .ok zone ∧ firstPacket f = .ok start? := by
  rw [packetField]
  cases packetZone f with
  | error e => exact ⟨nofun, fun h => nomatch h.1⟩
  | ok zone' =>
    cases firstPacket f with
    | error e => exact ⟨nofun, fun h => nomatch h.2⟩
    | ok start' =>
      show Except.ok (zone', start') = _ ↔ _
      simp

namespace Channel

variable {F : Type} [ChannelFrame F]

/-- A channel for packets that has not taken a frame yet. -/
def fresh (vcid : Nat) (kind : PacketKind) (strict : Bool) (listeners : List Nat) : Channel :=
  { vcid, mode := kind.mode, strict, listeners }

/-- What comes of each of several frames taken one after the other. -/
def outcomes (c : Channel) : List F → List Outcome
  | [] => []
  | f :: fs => c.process f :: outcomes (c.process f).channel fs

/-- The channel after several frames. -/
def after (c : Channel) : List F → Channel
  | [] => c
  | f :: fs => after (c.process f).channel fs

/-- The packets handed out for several frames. -/
def packets (c : Channel) (fs : List F) : List Extracted := (c.outcomes fs).flatMap (·.packets)

theorem after_append (c : Channel) (fs gs : List F) :
    c.after (fs ++ gs) = (c.after fs).after gs := by
  induction fs generalizing c with
  | nil => rfl
  | cons f fs ih => exact ih _

theorem outcomes_append (c : Channel) (fs gs : List F) :
    c.outcomes (fs ++ gs) = c.outcomes fs ++ (c.after fs).outcomes gs := by
  induction fs generalizing c with
  | nil => rfl
  | cons f fs ih => exact congrArg (_ :: ·) (ih _)

theorem after_concat (c : Channel) (fs : List F) (f : F) :
    c.after (fs ++ [f]) = ((c.after fs).process f).channel := after_append c fs [f]

theorem outcomes_concat (c : Channel) (fs : List F) (f : F) :
    c.outcomes (fs ++ [f]) = c.outcomes fs ++ [(c.after fs).process f] := outcomes_append c fs [f]

theorem packets_concat (c : Channel) (fs : List F) (f : F) :
    c.packets (fs ++ [f]) = c.packets fs ++ ((c.after fs).process f).packets := by
  simp [packets, outcomes_concat]

/-! ## One frame -/

variable {c : Channel} {f : F} {kind : PacketKind}

/-- Frames are missing before this one and after the last one that was not idle. -/
def missed (c : Channel) (f : F) : Bool := c.pendingGap || (c.gap? f).isSome

/-- The packet that the frame can continue. -/
def continued (c : Channel) (f : F) : Option PartialPacket := if c.missed f then none else c.inFlight?

/-- The packet that is handed out because its continuation is missing. -/
def cutOff (c : Channel) (f : F) : List Extracted :=
  if c.missed f then (c.inFlight?.bind (·.close?)).toList else []

theorem continued_of_not_missed (h : c.missed f = false) : c.continued f = c.inFlight? := by
  rw [continued, h]
  rfl

theorem cutOff_of_not_missed (h : c.missed f = false) : c.cutOff f = [] := by
  rw [cutOff, h]
  rfl

/-- Nothing is cut off, or the packet in flight is. -/
theorem cutOff_cases (c : Channel) (f : F) :
    c.cutOff f = [] ∨ c.missed f = true ∧ ∃ p ∈ c.inFlight?, p.total?.isSome = true ∧
      c.cutOff f = [{ bytes := p.bytes, complete := false }] := by
  rw [cutOff]
  split
  · cases hu : c.inFlight?.bind (·.close?) with
    | none => exact .inl rfl
    | some u =>
      obtain ⟨p, hp, hu⟩ := Option.bind_eq_some_iff.mp hu
      obtain ⟨t, ht, rfl⟩ := Option.map_eq_some_iff.mp hu
      exact .inr ⟨‹_›, p, hp, Option.isSome_iff_exists.mpr ⟨t, ht⟩, rfl⟩
  · exact .inl rfl

theorem process_of_vcid_ne (h : ChannelFrame.vcid f ≠ c.vcid) :
    (c.process f).channel = c ∧ (c.process f).events = [] := by
  rw [process, if_pos h]
  exact ⟨rfl, rfl⟩

/-- The channel that has noted the count of a frame. -/
private abbrev counted (c : Channel) (f : F) : Channel :=
  { c with lastCount? := some (ChannelFrame.frameCount f) }

theorem processContents_eq (hm : c.mode = kind.mode) (gap : Bool) :
    c.processContents f gap = c.processPackets kind f gap := by
  rw [processContents, hm]
  cases kind <;> rfl

private theorem process_eq (hv : ChannelFrame.vcid f = c.vcid) (hm : c.mode = kind.mode) :
    c.process f =
      { (c.counted f).processPackets kind f (c.gap? f).isSome with
        events := .frameReceived :: ((c.gap? f).toList.map .gapDetected ++
          ((c.counted f).processPackets kind f (c.gap? f).isSome).events) } := by
  have hm' : (c.counted f).mode = kind.mode := hm
  rw [process, if_neg (not_not_intro hv)]
  dsimp only
  rw [processContents_eq hm']

theorem filterMap_packet?_map (kind : PacketKind) (packets : List Extracted) :
    (packets.map fun p => Event.packetExtracted kind p.bytes p.complete).filterMap Event.packet? =
      packets := by
  rw [List.filterMap_map]
  exact List.filterMap_some

/-- Packets are all that a packet field is reported for. -/
theorem events_processPackets (c : Channel) (kind : PacketKind) (f : F) (gap : Bool) :
    ∃ packets : List Extracted, (c.processPackets kind f gap).events =
      packets.map fun p => .packetExtracted kind p.bytes p.complete := by
  unfold processPackets
  split
  · exact ⟨[], rfl⟩
  split
  · exact ⟨_, rfl⟩
  · exact ⟨_, rfl⟩

private theorem packets_process (hv : ChannelFrame.vcid f = c.vcid) (hm : c.mode = kind.mode) :
    (c.process f).packets =
      ((c.counted f).processPackets kind f (c.gap? f).isSome).events.filterMap Event.packet? := by
  rw [process_eq hv hm, Outcome.packets, List.filterMap_cons_none rfl, List.filterMap_append]
  cases c.gap? f <;> rfl

/-- Everything that is reported about a frame. -/
theorem events_process (hv : ChannelFrame.vcid f = c.vcid) (hm : c.mode = kind.mode) :
    (c.process f).events = .frameReceived :: ((c.gap? f).toList.map .gapDetected ++
      (c.process f).packets.map fun p => .packetExtracted kind p.bytes p.complete) := by
  obtain ⟨packets, h⟩ := events_processPackets (c.counted f) kind f (c.gap? f).isSome
  rw [packets_process hv hm, process_eq hv hm, h, filterMap_packet?_map]

theorem isGap_of_mem_processPackets {gap : Bool} {event : Event}
    (h : event ∈ (c.processPackets kind f gap).events) : event.isGap = false := by
  obtain ⟨packets, h'⟩ := events_processPackets c kind f gap
  rw [h'] at h
  obtain ⟨p, -, rfl⟩ := List.mem_map.mp h
  rfl

theorem reportsGap_process (hv : ChannelFrame.vcid f = c.vcid) (hm : c.mode = kind.mode) :
    (c.process f).reportsGap = (c.gap? f).isSome := by
  have hnone : ((c.counted f).processPackets kind f (c.gap? f).isSome).events.any Event.isGap =
      false :=
    List.any_eq_false.mpr fun event h => by simp [isGap_of_mem_processPackets h]
  rw [process_eq hv hm, Outcome.reportsGap, List.any_cons, List.any_append, hnone]
  cases c.gap? f <;> rfl

/-- An idle frame only counts. -/
theorem process_idle (hv : ChannelFrame.vcid f = c.vcid) (hm : c.mode = kind.mode)
    (hi : ChannelFrame.isIdle f = true) :
    (c.process f).channel =
        { c with lastCount? := some (ChannelFrame.frameCount f), pendingGap := c.missed f } ∧
      (c.process f).packets = [] ∧ (c.process f).result = .ok () := by
  rw [packets_process hv hm, process_eq hv hm, processPackets, if_pos hi]
  exact ⟨rfl, rfl, rfl⟩

/-- A frame that has no packets is an error; the packet in flight is kept unless frames are
missing. -/
theorem process_unusable {e : Error} (hv : ChannelFrame.vcid f = c.vcid) (hm : c.mode = kind.mode)
    (hi : ChannelFrame.isIdle f = false) (he : ChannelFrame.packetField f = .error e) :
    (c.process f).channel =
        { c with
          lastCount? := some (ChannelFrame.frameCount f), pendingGap := false
          inFlight? := c.continued f } ∧
      (c.process f).packets = c.cutOff f ∧ (c.process f).result = .error e := by
  rw [packets_process hv hm, process_eq hv hm, processPackets, if_neg (by simp [hi]), he]
  exact ⟨rfl, filterMap_packet?_map kind _, rfl⟩

/-- A frame with packets continues the packet in flight unless frames are missing. -/
theorem process_zone {zone : Bytes} {start? : Option Nat} (hv : ChannelFrame.vcid f = c.vcid)
    (hm : c.mode = kind.mode) (hi : ChannelFrame.isIdle f = false)
    (hz : ChannelFrame.packetField f = .ok (zone, start?)) :
    (c.process f).channel =
        { c with
          lastCount? := some (ChannelFrame.frameCount f), pendingGap := false
          inFlight? := (advance kind (c.continued f) zone start?).2 } ∧
      (c.process f).packets = c.cutOff f ++ (advance kind (c.continued f) zone start?).1 ∧
      (c.process f).result = .ok () := by
  rw [packets_process hv hm, process_eq hv hm, processPackets, if_neg (by simp [hi]), hz]
  exact ⟨rfl, filterMap_packet?_map kind _, rfl⟩

end Channel

end SpaceLink
