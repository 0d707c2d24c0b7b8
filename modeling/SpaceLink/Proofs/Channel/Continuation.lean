import SpaceLink.Proofs.Channel.Carrier
import SpaceLink.Proofs.Channel.Invariant
import SpaceLink.Proofs.Steps

/-!
# Continuing a packet

A packet in flight is continued by a loop that completes its header in steps, learns its length on
the way and then fetches the rest (`Checked.resume`). Still what becomes of the packet depends only
on all its bytes together, and `Continuation` says what that is, with one case for each way in which
the loop ends (`PartialPacket.Suspended.resume_iff`). `Channel.packet_continued` is what it means
for a frame that a channel takes.
-/

namespace SpaceLink

/-- What becomes of a packet in flight of which `u` is all that has arrived, when the next packet
starts after it (`interrupted`) or the zone ends: the packet handed out and the one then in
flight. -/
inductive Continuation (kind : PacketKind) (u : Bytes) :
    (interrupted : Bool) → Option Extracted → Option PartialPacket → Prop
  | headerInterrupted (h : u.length < kind.headerLength u) : Continuation kind u true none none
  | headerPending (h : u.length < kind.headerLength u) :
    Continuation kind u false none (some { bytes := u, total? := none })
  /-- The packet declares less than its own header. -/
  | malformed {t : Nat} {interrupted : Bool} (ht : kind.declaredLength? u = some t)
    (h : t < kind.headerLength u) : Continuation kind u interrupted none none
  /-- Bytes after the declared length are ignored. -/
  | completed {t : Nat} {interrupted : Bool} (ht : kind.declaredLength? u = some t)
    (hh : kind.headerLength u ≤ t) (h : t ≤ u.length) :
    Continuation kind u interrupted (some { bytes := u.take t, complete := true }) none
  | cutOff {t : Nat} (ht : kind.declaredLength? u = some t) (hh : kind.headerLength u ≤ t)
    (h : u.length < t) : Continuation kind u true (some { bytes := u, complete := false }) none
  | pending {t : Nat} (ht : kind.declaredLength? u = some t) (hh : kind.headerLength u ≤ t)
    (h : u.length < t) : Continuation kind u false none (some { bytes := u, total? := some t })

variable {kind : PacketKind} {u : Bytes} {t : Nat} {interrupted : Bool}
  {resumed? : Option Extracted} {waiting? : Option PartialPacket}

namespace Continuation

/-- One of the cases applies. -/
theorem exhaustive (kind : PacketKind) (u : Bytes) (interrupted : Bool) :
    ∃ resumed? waiting?, Continuation kind u interrupted resumed? waiting? := by
  cases ht : kind.declaredLength? u with
  | none =>
    have h := PacketKind.declaredLength?_eq_none_iff.mp ht
    cases interrupted with
    | false => exact ⟨_, _, .headerPending h⟩
    | true => exact ⟨_, _, .headerInterrupted h⟩
  | some t =>
    rcases Nat.lt_or_ge t (kind.headerLength u) with hm | hh
    · exact ⟨_, _, .malformed ht hm⟩
    rcases Nat.lt_or_ge u.length t with hl | hl
    · cases interrupted with
      | false => exact ⟨_, _, .pending ht hh hl⟩
      | true => exact ⟨_, _, .cutOff ht hh hl⟩
    · exact ⟨_, _, .completed ht hh hl⟩

theorem settle_eq (h : Continuation kind u interrupted resumed? waiting?) (hu : u ≠ []) :
    settle kind u interrupted = (resumed?, waiting?) := by
  have hnone (h : u.length < kind.headerLength u) :
      kind.packetLength? u = none ∧ held? kind u = some { bytes := u, total? := none } := by
    have ht := PacketKind.declaredLength?_eq_none_iff.mpr h
    rw [PacketKind.packetLength?, ht, held?_of_none hu ht]
    exact ⟨rfl, rfl⟩
  have hsome {t : Nat} (ht : kind.declaredLength? u = some t)
      (h : t < kind.headerLength u ∨ u.length < t) : kind.packetLength? u = none := by
    rw [PacketKind.packetLength?_of_declaredLength? ht, if_neg (by omega)]
  cases h with
  | headerInterrupted h => rw [settle, (hnone h).1, (hnone h).2]; rfl
  | headerPending h => rw [settle_of_none (hnone h).1, (hnone h).2]
  | malformed ht h =>
    rw [settle, hsome ht (.inl h), held?_of_some ht, if_pos h]
    cases interrupted <;> rfl
  | completed ht hh h => exact settle_of_some (PacketKind.packetLength?_eq_some_iff.mpr ⟨ht, hh, h⟩) _
  | cutOff ht hh h =>
    rw [settle, hsome ht (.inr h), held?_of_some ht, if_neg (Nat.not_lt.mpr hh)]
    rfl
  | pending ht hh h =>
    rw [settle_of_none (hsome ht (.inr h)), held?_of_some ht, if_neg (Nat.not_lt.mpr hh)]

theorem settle_iff (hu : u ≠ []) : settle kind u interrupted = (resumed?, waiting?) ↔
    Continuation kind u interrupted resumed? waiting? := by
  refine ⟨fun h => ?_, fun h => h.settle_eq hu⟩
  obtain ⟨_, _, h'⟩ := exhaustive kind u interrupted
  cases (h'.settle_eq hu).symm.trans h
  exact h'

/-- A packet that has exactly its declared length is complete. -/
theorem eq_of_whole (h : Continuation kind u interrupted resumed? waiting?)
    (hu : kind.declaredLength? u = some u.length) :
    resumed? = some { bytes := u, complete := true } ∧ waiting? = none := by
  have hc : Continuation kind u interrupted (some { bytes := u.take u.length, complete := true })
      none := .completed hu (PacketKind.headerLength_le_length hu) (Nat.le_refl _)
  have hne := PacketKind.ne_nil_of_declaredLength? hu
  rw [List.take_length] at hc
  exact Prod.mk.inj ((h.settle_eq hne).symm.trans (hc.settle_eq hne))

end Continuation

/-- The loop that continues a packet ends in exactly the way that all bytes of the packet together
call for, however they are cut. -/
theorem PartialPacket.Suspended.resume_iff {p : PartialPacket} (h : p.Suspended kind) (zone : Bytes)
    (start? : Option Nat) :
    Checked.resume kind p zone (start?.map (min · zone.length)) = some (resumed?, waiting?) ↔
      Continuation kind (p.bytes ++ before zone start?) start?.isSome resumed? waiting? := by
  rw [Checked.resume_eq h, PartialPacket.resume_eq h, Option.some_inj,
    Continuation.settle_iff (List.append_ne_nil_of_left_ne_nil h.bytes_ne_nil _)]

/-- The packet in flight comes before those that start in the zone, and after it only these can be
in flight if one starts. -/
theorem advance_some {p : PartialPacket} {zone : Bytes} {start? : Option Nat}
    (h : p.resume kind zone start? = (resumed?, waiting?)) :
    advance kind (some p) zone start? =
      (resumed?.toList ++ start?.elim [] fun start =>
          (extract kind (zone.drop start)).1.map fun bytes => { bytes, complete := true },
        start?.elim waiting? fun start => (extract kind (zone.drop start)).2) := by
  rw [advance]
  dsimp only
  rw [h]
  cases start? with
  | none => exact congrArg (·, waiting?) (List.append_nil _).symm
  | some start => rfl

namespace Channel

variable {F : Type} [ChannelFrame F]

/-- What a frame does to the packet `p` in flight: with the bytes of its packet zone up to the first
packet that starts there, `p` comes to `resumed?` and `waiting?`, before that packet is looked at. -/
structure Continues (c : Channel) (kind : PacketKind) (p : PartialPacket) (f : F) (zone : Bytes)
    (start? : Option Nat) (resumed? : Option Extracted) (waiting? : Option PartialPacket) :
    Prop where
  packetZone : ChannelFrame.packetZone f = .ok zone
  firstPacket : ChannelFrame.firstPacket f = .ok start?
  resume : Checked.resume kind p zone (start?.map (min · zone.length)) = some (resumed?, waiting?)
  continuation : Continuation kind (p.bytes ++ before zone start?) start?.isSome resumed? waiting?
  whole : kind.declaredLength? (p.bytes ++ before zone start?) =
      some (p.bytes ++ before zone start?).length →
    resumed? = some { bytes := p.bytes ++ before zone start?, complete := true } ∧ waiting? = none
  packets : (c.process f).packets = resumed?.toList ++ start?.elim [] fun start =>
    (extract kind (zone.drop start)).1.map fun bytes => { bytes, complete := true }
  events : (c.process f).events = .frameReceived :: (c.process f).packets.map fun packet =>
    .packetExtracted kind packet.bytes packet.complete
  inFlight : (c.process f).channel.inFlight? =
    start?.elim waiting? fun start => (extract kind (zone.drop start)).2

theorem continues_of_suspended {c : Channel} {p : PartialPacket} {f : F} (hm : c.mode = kind.mode)
    (hp : c.inFlight? = some p) (hs : p.Suspended kind) (hv : ChannelFrame.vcid f = c.vcid)
    (hi : ChannelFrame.isIdle f = false) (hc : c.missed f = false)
    (hok : (c.process f).result = .ok ()) :
    ∃ zone start? resumed? waiting?, c.Continues kind p f zone start? resumed? waiting? := by
  cases hz : ChannelFrame.packetField f with
  | error e =>
    rw [(process_unusable hv hm hi hz).2.2] at hok
    cases hok
  | ok field =>
    obtain ⟨zone, start?⟩ := field
    obtain ⟨hzone, hstart⟩ := ChannelFrame.packetField_eq_ok_iff.mp hz
    obtain ⟨hchannel, hpackets, -⟩ := process_zone hv hm hi hz
    have hresume : p.resume kind zone start? =
        ((p.resume kind zone start?).1, (p.resume kind zone start?).2) := rfl
    have hloop := (Checked.resume_eq hs zone start?).trans (congrArg some hresume)
    have hcontinuation := (hs.resume_iff zone start?).mp hloop
    have hgap : c.gap? f = none := by simpa [missed] using (Bool.or_eq_false_iff.mp hc).2
    rw [continued_of_not_missed hc, hp, advance_some hresume] at hchannel hpackets
    rw [cutOff_of_not_missed hc, List.nil_append] at hpackets
    refine ⟨zone, start?, _, _, hzone, hstart, hloop, hcontinuation, hcontinuation.eq_of_whole,
      hpackets, ?_, ?_⟩
    · rw [events_process hv hm, hgap]
      rfl
    · rw [hchannel]

/-- Whatever has been done to a channel for packets, a frame with packets continues the packet in
flight as one look at all its bytes would, unless frames are missing before it. -/
theorem packet_continued (kind : PacketKind) (vcid : Nat) (strict : Bool) (listeners : List Nat)
    (actions : List (Action F)) (p : PartialPacket) (f : F) :
    let c := actions.foldl act (fresh vcid kind strict listeners)
    c.inFlight? = some p → ChannelFrame.vcid f = c.vcid → ChannelFrame.isIdle f = false →
    c.pendingGap = false → c.gap? f = none → (c.process f).result = .ok () →
    ∃ zone start? resumed? waiting?, c.Continues kind p f zone start? resumed? waiting? := by
  intro c hp hv hi hpending hgap hok
  have h : c.Reassembles kind.mode := Reassembles.run (.of_none rfl rfl) actions
  exact continues_of_suspended h.mode_eq hp (h.suspended kind rfl p hp) hv hi
    (by rw [missed, hpending, hgap]; rfl) hok

/-- One byte of a header of four is in flight when a frame brings the rest of the packet and the
next packet starts exactly at its end. -/
theorem packet_continued_at_end :
    let first := Tm.Frame.plain 5 7 0 [0xe6]
    let next := Tm.Frame.plain 5 8 5 [0x00, 0x00, 0x06, 0xaa, 0xbb, 0xe5, 0x09]
    let c := [.reset, .process first].foldl act (fresh 5 .encapsulation true [0])
    (∃ zone start? resumed? waiting?, c.Continues .encapsulation
      { bytes := [0xe6], total? := none } next zone start? resumed? waiting?) ∧
    (c.process next).packets =
      [{ bytes := [0xe6, 0x00, 0x00, 0x06, 0xaa, 0xbb], complete := true }] := by
  intro first next c
  have hok : (c.process next).result.isOk = true := by decide +kernel
  obtain ⟨⟨⟩, hok⟩ := exists_eq_ok_of_isOk hok
  exact ⟨packet_continued .encapsulation 5 true [0] [.reset, .process first] _ next
    (by decide +kernel) rfl rfl (by decide +kernel) (by decide +kernel) hok, by decide +kernel⟩

end Channel

end SpaceLink
