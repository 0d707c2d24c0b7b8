import SpaceLink.Proofs.Channel.Continuation
import SpaceLink.Proofs.Channel.Refusal

/-!
# The events of a frame, in order

A channel reports a frame of its virtual channel, then the frames missing before it, and then what
its access mode makes of the contents (`Channel.Reports`). Where packets are reassembled, the packet
that was in flight comes first. It is handed out at most once: cut off, for one of the reasons in
`Channel.CutsOff`, or complete; and all packets after it are complete (`Channel.HandsOut`).
`Channel.events_ordered` is for all states that a channel can come to.
-/

namespace SpaceLink

variable {kind : PacketKind}

/-- The packets that start in a frame and end in it. -/
def ChannelFrame.ownPackets {F : Type} [ChannelFrame F] (kind : PacketKind) (f : F) : List Bytes :=
  match packetField f with
  | .ok (zone, some start) => (extract kind (zone.drop start)).1
  | .ok (_, none) | .error _ => []

/-- A packet is cut off where the next one starts exactly if its header is complete there and it is
not. -/
theorem PartialPacket.Suspended.resume_cut_iff {p : PartialPacket} (h : p.Suspended kind)
    {zone bytes : Bytes} {start? : Option Nat} :
    (p.resume kind zone start?).1 = some { bytes, complete := false } ↔
      ∃ start t, start? = some start ∧ bytes = p.bytes ++ zone.take start ∧
        kind.declaredLength? bytes = some t ∧ bytes.length < t := by
  have hne : p.bytes ++ before zone start? ≠ [] := List.append_ne_nil_of_left_ne_nil h.bytes_ne_nil _
  rw [PartialPacket.resume_eq h]
  constructor
  · intro hcut
    generalize hinterrupted : start?.isSome = interrupted at hcut
    obtain ⟨waiting?, hsettle⟩ : ∃ waiting?, settle kind (p.bytes ++ before zone start?) interrupted =
        (some { bytes, complete := false }, waiting?) := ⟨_, Prod.ext hcut rfl⟩
    cases (Continuation.settle_iff hne).mp hsettle with
    | cutOff ht hh hl =>
      obtain ⟨start, rfl⟩ := Option.isSome_iff_exists.mp hinterrupted
      exact ⟨start, _, rfl, rfl, ht, hl⟩
  · rintro ⟨start, t, rfl, rfl, ht, hl⟩
    have hle := PacketKind.headerLength_le_length ht
    have hcontinuation : Continuation kind (p.bytes ++ zone.take start) true _ _ :=
      .cutOff ht (by omega) hl
    exact congrArg Prod.fst (hcontinuation.settle_eq hne)

namespace Channel

variable {F : Type} [ChannelFrame F] {c : Channel} {f : F}

/-! ## What is handed out -/

/-- With the frame, the channel hands out the first bytes of the packet in flight as all that there
is of it. `missed` says that frames are missing since the last one that was not idle. -/
inductive CutsOff (c : Channel) (kind : PacketKind) (f : F) (missed : Prop) : Bytes → Prop
  /-- The length of the packet is known, and its continuation missing. -/
  | missing {p : PartialPacket} {t : Nat} (hi : ChannelFrame.isIdle f = false) (hm : missed)
    (hp : c.inFlight? = some p) (ht : p.total? = some t) : CutsOff c kind f missed p.bytes
  /-- The length of the packet is known, and the next one starts before its end. -/
  | interrupted {p : PartialPacket} {t start : Nat} {zone : Bytes}
    (hi : ChannelFrame.isIdle f = false) (hm : ¬missed) (hp : c.inFlight? = some p)
    (ht : p.total? = some t) (hz : ChannelFrame.packetField f = .ok (zone, some start))
    (hl : (p.bytes ++ zone.take start).length < t) :
    CutsOff c kind f missed (p.bytes ++ zone.take start)
  /-- The frame completes the header of the packet, and the next one starts before its end. -/
  | headerCompleted {p : PartialPacket} {t start : Nat} {zone : Bytes}
    (hi : ChannelFrame.isIdle f = false) (hm : ¬missed) (hp : c.inFlight? = some p)
    (hu : p.total? = none) (hz : ChannelFrame.packetField f = .ok (zone, some start))
    (ht : kind.declaredLength? (p.bytes ++ zone.take start) = some t)
    (hl : (p.bytes ++ zone.take start).length < t) :
    CutsOff c kind f missed (p.bytes ++ zone.take start)

/-- A channel hands out for a frame a packet that is cut off, if one is, and then complete ones. -/
structure HandsOut (c : Channel) (kind : PacketKind) (f : F) (missed : Prop) (cut? : Option Bytes)
    (complete : List Bytes) : Prop where
  packets : (c.process f).packets = cut?.toList.map (fun bytes => ⟨bytes, false⟩) ++
    complete.map (fun bytes => ⟨bytes, true⟩)
  idle : ChannelFrame.isIdle f = true → cut? = none ∧ complete = []
  cut_iff : ∀ bytes, cut? = some bytes ↔ c.CutsOff kind f missed bytes
  /-- Of the packet in flight when frames are missing, there is what has arrived or nothing. -/
  missing : ChannelFrame.isIdle f = false → missed → ∀ p, c.inFlight? = some p →
    cut? = p.total?.map (fun _ => p.bytes) ∧ complete = ChannelFrame.ownPackets kind f
  /-- The packet in flight is handed out once, and before those of the frame. -/
  once : ChannelFrame.isIdle f = false → ∃ continued? : Option Bytes,
    complete = continued?.toList ++ ChannelFrame.ownPackets kind f ∧
      (cut?.isSome = true → continued? = none)

/-- What is reported about a frame in an access mode, beyond the frame and missing frames. -/
inductive Reports (c : Channel) (f : F) (missed : Prop) (mode : AccessMode) : List Event → Prop
  | data (hm : mode = .data) : Reports c f missed mode [.dataExtracted (ChannelFrame.dataZone f)]
  | noBitstream (hm : mode = .bitstream) : Reports c f missed mode []
  | bitstream {zone : Bytes} {validBits : Nat} (hm : mode = .bitstream)
    (hi : ChannelFrame.isIdle f = false) (h : ChannelFrame.bitstream f = .ok (zone, validBits)) :
    Reports c f missed mode [.bitstreamExtracted (zone.take ((validBits + 7) / 8)) validBits]
  | packets {kind : PacketKind} {cut? : Option Bytes} {complete : List Bytes}
    (hm : mode = kind.mode) (h : c.HandsOut kind f missed cut? complete) : Reports c f missed mode
      (cut?.toList.map (.packetExtracted kind · false) ++
        complete.map (.packetExtracted kind · true))

/-- The packet in flight as it is handed out when the frame continues it, if it then is. -/
def resumed? (c : Channel) (kind : PacketKind) (f : F) : Option Extracted :=
  match ChannelFrame.packetField f with
  | .ok (zone, start?) => (c.continued f).bind fun p => (p.resume kind zone start?).1
  | .error _ => none

/-- The packets handed out for a frame that is not idle, by where they come from. -/
theorem packets_eq (hv : ChannelFrame.vcid f = c.vcid) (hm : c.mode = kind.mode)
    (hi : ChannelFrame.isIdle f = false) : (c.process f).packets =
      c.cutOff f ++ (c.resumed? kind f).toList ++
        (ChannelFrame.ownPackets kind f).map fun bytes => { bytes, complete := true } := by
  cases hz : ChannelFrame.packetField f with
  | error e =>
    rw [(process_unusable hv hm hi hz).2.1, resumed?, ChannelFrame.ownPackets, hz]
    simp
  | ok field =>
    obtain ⟨zone, start?⟩ := field
    rw [(process_zone hv hm hi hz).2.1, resumed?, ChannelFrame.ownPackets, hz, List.append_assoc]
    congr 1
    cases c.continued f with
    | none => cases start? <;> rfl
    | some p =>
      rw [advance_some (show p.resume kind zone start? = (_, _) from rfl)]
      cases start? <;> rfl

/-- When frames are missing, only what is cut off is handed out of the packet in flight. -/
theorem handsOut_missed (hv : ChannelFrame.vcid f = c.vcid) (hm : c.mode = kind.mode)
    (hi : ChannelFrame.isIdle f = false) (h : c.missed f = true) : ∃ cut? complete,
      c.HandsOut kind f (c.missed f = true) cut? complete := by
  have hresumed : c.resumed? kind f = none := by
    rw [resumed?, continued, if_pos h]
    cases ChannelFrame.packetField f <;> rfl
  refine ⟨c.inFlight?.bind fun p => p.total?.map fun _ => p.bytes, ChannelFrame.ownPackets kind f,
    ?_, fun hidle => absurd hidle (by simp [hi]), fun bytes => ?_, fun _ _ p hp => by simp [hp],
    fun _ => ⟨none, rfl, fun _ => rfl⟩⟩
  · rw [packets_eq hv hm hi, hresumed, cutOff, if_pos h]
    cases c.inFlight? with
    | none => rfl
    | some p => cases ht : p.total? <;> simp [PartialPacket.close?, ht]
  · constructor
    · intro hcut
      obtain ⟨p, hp, hcut⟩ := Option.bind_eq_some_iff.mp hcut
      obtain ⟨t, ht, rfl⟩ := Option.map_eq_some_iff.mp hcut
      exact .missing hi h hp ht
    · intro hcut
      cases hcut with
      | missing _ _ hp ht => simp [hp, ht]
      | interrupted _ hmissed => exact absurd h hmissed
      | headerCompleted _ hmissed => exact absurd h hmissed

/-- Unless frames are missing, a packet is cut off only where the frame has the next one start. -/
theorem resumed?_cut_iff (hs : ∀ p ∈ c.inFlight?, p.Suspended kind)
    (hi : ChannelFrame.isIdle f = false) (h : c.missed f = false) {bytes : Bytes} :
    c.resumed? kind f = some ⟨bytes, false⟩ ↔ c.CutsOff kind f (c.missed f = true) bytes := by
  have hmissed : ¬c.missed f = true := by simp [h]
  constructor
  · intro hr
    rw [resumed?, continued_of_not_missed h] at hr
    cases hz : ChannelFrame.packetField f with
    | error e => simp [hz] at hr
    | ok field =>
      obtain ⟨zone, start?⟩ := field
      simp only [hz] at hr
      obtain ⟨p, hp, hr⟩ := Option.bind_eq_some_iff.mp hr
      obtain ⟨start, t, rfl, rfl, ht, hl⟩ := (hs p hp).resume_cut_iff.mp hr
      cases hu : p.total? with
      | none => exact .headerCompleted hi hmissed hp hu hz ht hl
      | some u =>
        have hd := PacketKind.declaredLength?_append (e := zone.take start)
          ((hs p hp).total?_eq.symm.trans hu)
        obtain rfl : u = t := Option.some.inj (hd.symm.trans ht)
        exact .interrupted hi hmissed hp hu hz hl
  · intro hcut
    have hresumed {p : PartialPacket} {zone : Bytes} {start t : Nat} (hp : c.inFlight? = some p)
        (hz : ChannelFrame.packetField f = .ok (zone, some start))
        (ht : kind.declaredLength? (p.bytes ++ zone.take start) = some t)
        (hl : (p.bytes ++ zone.take start).length < t) :
        c.resumed? kind f = some ⟨p.bytes ++ zone.take start, false⟩ := by
      simp only [resumed?, continued_of_not_missed h, hz, hp, Option.bind_some]
      exact (hs p hp).resume_cut_iff.mpr ⟨start, t, rfl, rfl, ht, hl⟩
    cases hcut with
    | missing _ hm => exact absurd hm hmissed
    | headerCompleted _ _ hp _ hz ht hl => exact hresumed hp hz ht hl
    | interrupted _ _ hp ht hz hl =>
      have hd := (hs _ hp).total?_eq.symm.trans ht
      exact hresumed hp hz (PacketKind.declaredLength?_append hd) hl

/-- Unless frames are missing, the packet in flight is cut off or completed by the frame, or not
handed out. -/
theorem handsOut_kept (hs : ∀ p ∈ c.inFlight?, p.Suspended kind)
    (hv : ChannelFrame.vcid f = c.vcid) (hm : c.mode = kind.mode)
    (hi : ChannelFrame.isIdle f = false) (h : c.missed f = false) : ∃ cut? complete,
      c.HandsOut kind f (c.missed f = true) cut? complete := by
  have hcut_iff (bytes : Bytes) : c.resumed? kind f = some ⟨bytes, false⟩ ↔
      c.CutsOff kind f (c.missed f = true) bytes := resumed?_cut_iff hs hi h
  have hidle : ¬ChannelFrame.isIdle f = true := by simp [hi]
  have hmissed : ¬c.missed f = true := by simp [h]
  have hpackets := packets_eq hv hm hi
  rw [cutOff_of_not_missed h, List.nil_append] at hpackets
  generalize c.resumed? kind f = resumed? at hcut_iff hpackets
  cases resumed? with
  | none =>
    refine ⟨none, ChannelFrame.ownPackets kind f, hpackets, (absurd · hidle), fun bytes => ?_,
      fun _ hm => absurd hm hmissed, fun _ => ⟨none, rfl, fun _ => rfl⟩⟩
    simp [← hcut_iff]
  | some packet =>
    obtain ⟨bytes, complete⟩ := packet
    cases complete with
    | false =>
      refine ⟨some bytes, ChannelFrame.ownPackets kind f, hpackets, (absurd · hidle),
        fun bytes' => ?_, fun _ hm => absurd hm hmissed, fun _ => ⟨none, rfl, fun _ => rfl⟩⟩
      simp [← hcut_iff]
    | true =>
      refine ⟨none, bytes :: ChannelFrame.ownPackets kind f, hpackets, (absurd · hidle),
        fun bytes' => ?_, fun _ hm => absurd hm hmissed, fun _ => ⟨some bytes, rfl, nofun⟩⟩
      simp [← hcut_iff]

theorem handsOut_idle (hv : ChannelFrame.vcid f = c.vcid) (hm : c.mode = kind.mode)
    (hi : ChannelFrame.isIdle f = true) : ∃ cut? complete,
      c.HandsOut kind f (c.missed f = true) cut? complete := by
  have hidle : ¬ChannelFrame.isIdle f = false := by simp [hi]
  refine ⟨none, [], (process_idle hv hm hi).2.1, fun _ => ⟨rfl, rfl⟩, fun bytes => ⟨nofun, ?_⟩,
    (absurd · hidle), (absurd · hidle)⟩
  intro hcut
  cases hcut with
  | missing h => exact absurd h hidle
  | interrupted h => exact absurd h hidle
  | headerCompleted h => exact absurd h hidle

theorem exists_handsOut (hs : ∀ p ∈ c.inFlight?, p.Suspended kind)
    (hv : ChannelFrame.vcid f = c.vcid) (hm : c.mode = kind.mode) : ∃ cut? complete,
      c.HandsOut kind f (c.missed f = true) cut? complete := by
  cases hi : ChannelFrame.isIdle f with
  | true => exact handsOut_idle hv hm hi
  | false =>
    cases h : c.missed f with
    | true => exact h ▸ handsOut_missed hv hm hi h
    | false => exact h ▸ handsOut_kept hs hv hm hi h

/-! ## All modes -/

/-- The events of a frame, up to those for its contents, do not depend on the mode. -/
theorem events_own (hv : ChannelFrame.vcid f = c.vcid) : (c.process f).events =
    .frameReceived :: ((c.gap? f).toList.map .gapDetected ++
      (processContents { c with lastCount? := some (ChannelFrame.frameCount f) } f
        (c.gap? f).isSome).events) := by
  rw [process, if_neg (not_not_intro hv)]

theorem reports_bitstream (c d : Channel) (f : F) (missed : Prop) :
    c.Reports f missed .bitstream (d.processBitstream f).events := by
  rw [processBitstream]
  split
  · exact .noBitstream rfl
  split
  · exact .noBitstream rfl
  split
  · exact .noBitstream rfl
  · exact .bitstream rfl (Bool.eq_false_iff.mpr ‹_›) ‹_›

/-- For a state that reassembly can leave behind, the contents are reported as the mode says. -/
theorem exists_reports {mode : AccessMode} (h : c.Reassembles mode)
    (hv : ChannelFrame.vcid f = c.vcid) : ∃ reported,
      (c.process f).events =
        .frameReceived :: ((c.gap? f).toList.map .gapDetected ++ reported) ∧
      c.Reports f (c.missed f = true) mode reported := by
  have hpackets (kind : PacketKind) (hk : mode = kind.mode) : ∃ reported,
      (c.process f).events =
        .frameReceived :: ((c.gap? f).toList.map .gapDetected ++ reported) ∧
      c.Reports f (c.missed f = true) mode reported := by
    have hm := h.mode_eq.trans hk
    obtain ⟨cut?, complete, hout⟩ := exists_handsOut (h.suspended kind hk) hv hm
    refine ⟨_, events_process hv hm, ?_⟩
    rw [hout.packets, List.map_append, List.map_map, List.map_map]
    exact .packets hk hout
  cases mode with
  | packet => exact hpackets .space rfl
  | encapsulation => exact hpackets .encapsulation rfl
  | data =>
    refine ⟨_, events_own hv, ?_⟩
    simp only [processContents, h.mode_eq]
    exact .data rfl
  | bitstream =>
    refine ⟨_, events_own hv, ?_⟩
    simp only [processContents, h.mode_eq]
    exact reports_bitstream c _ f _

/-- What a channel reports about a frame of its virtual channel, whatever has been done to it
before, is in order: the frame, missing frames, the packet that was in flight, and then what the
frame itself has for the access mode. -/
theorem events_ordered (vcid : Nat) (mode : AccessMode) (strict : Bool) (listeners : List Nat)
    (actions : List (Action F)) (f : F) :
    let new : Channel := { vcid, mode, strict, listeners }
    let c := actions.foldl act new
    ChannelFrame.vcid f = vcid → ∃ reported,
      (c.process f).events =
        .frameReceived :: ((c.gap? f).toList.map .gapDetected ++ reported) ∧
      c.Reports f (new.MissedBefore actions ∨ (c.gap? f).isSome = true) mode reported := by
  intro new c hv
  have hnew : new.Reassembles mode := .of_none rfl rfl
  have hvcid : ChannelFrame.vcid f = c.vcid := hv.trans (vcid_run new actions).symm
  obtain ⟨reported, hevents, hreports⟩ := exists_reports (hnew.run actions) hvcid
  refine ⟨reported, hevents, ?_⟩
  cases hreports with
  | data hm => exact .data hm
  | noBitstream hm => exact .noBitstream hm
  | bitstream hm hi h => exact .bitstream hm hi h
  | packets hm hout =>
    -- only reassembly takes note of missing frames
    have hmissed : c.missed f = true ↔ new.MissedBefore actions ∨ (c.gap? f).isSome = true := by
      rw [missed, Bool.or_eq_true, ← pendingGap_iff rfl (hm ▸ hnew) actions]
    rw [propext hmissed] at hout
    exact .packets hm hout

/-- Frames are missing before an idle frame, and the packet in flight is cut off when the next frame
brings another one, without a gap of its own. -/
theorem events_ordered_after_idle :
    let held : Bytes := [0x08, 0x01, 0xc0, 0x00, 0x00, 0x0d, 1, 2]
    let packet : Bytes := [0x08, 0x02, 0xc0, 0x00, 0x00, 0x00, 0xaa]
    let new : Channel := { vcid := 5, mode := .packet, listeners := [0] }
    let actions := [.process (Tm.Frame.plain 5 7 0 held), .process (Tm.Frame.plain 5 9 0x7fe [])]
    let c := actions.foldl act new
    let next := Tm.Frame.plain 5 10 0 packet
    (∃ reported, (c.process next).events =
        .frameReceived :: ((c.gap? next).toList.map .gapDetected ++ reported) ∧
      c.Reports next (new.MissedBefore actions ∨ (c.gap? next).isSome = true) .packet reported) ∧
    (c.process next).events = [.frameReceived, .packetExtracted .space held false,
      .packetExtracted .space packet true] := by
  intro held packet new actions c next
  exact ⟨events_ordered 5 .packet false [0] actions next rfl, by decide +kernel⟩

end Channel

end SpaceLink
