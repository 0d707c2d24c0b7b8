import SpaceLink.Proofs.Channel.Checked
import SpaceLink.Proofs.Channel.Placement

/-!
# What is in flight

Whatever is done to a channel (`Channel.Action`), what is in flight in it is the beginning of a
packet that is not complete yet (`PartialPacket.Unfinished`), and a channel that does not
reassemble packets has nothing in flight (`Channel.WellFormed`). So the next frame can be taken
without a number leaving its range, a cut leaving its zone or a loop running forever
(`Channel.wellFormed_run`).
-/

namespace SpaceLink

/-- The packet has been begun and is not complete: either its header is not, or its declared length,
which is not shorter than the header, is longer than what is there. -/
def PartialPacket.Unfinished (kind : PacketKind) (p : PartialPacket) : Prop :=
  p.bytes ≠ [] ∧ match p.total? with
  | none => p.bytes.length < kind.headerLength p.bytes
  | some t =>
    kind.declaredLength? p.bytes = some t ∧ kind.headerLength p.bytes ≤ t ∧
      kind.headerLength p.bytes ≤ p.bytes.length ∧ p.bytes.length < t ∧
      (kind = .encapsulation → 2 ≤ kind.headerLength p.bytes)

theorem PartialPacket.Suspended.unfinished {kind : PacketKind} {p : PartialPacket}
    (h : p.Suspended kind) : p.Unfinished kind := by
  refine ⟨h.bytes_ne_nil, ?_⟩
  have hd := h.total?_eq
  cases ht : p.total? with
  | none => exact PacketKind.declaredLength?_eq_none_iff.mp (hd ▸ ht)
  | some t =>
    have hd : kind.declaredLength? p.bytes = some t := hd ▸ ht
    -- a header of one byte makes a complete packet
    have h1 := PacketKind.headerLength_ne_one h.bytes_ne_nil h.incomplete
    have hpos := kind.headerLength_pos p.bytes
    exact ⟨hd, h.headerLength_le ht, PacketKind.headerLength_le_length hd, h.length_lt ht,
      fun _ => by omega⟩

namespace Channel

/-- What is in flight fits the mode of the channel. -/
structure WellFormed (c : Channel) : Prop where
  none_inFlight : c.mode = .data ∨ c.mode = .bitstream → c.inFlight? = none
  unfinished : ∀ kind : PacketKind, c.mode = kind.mode → ∀ p ∈ c.inFlight?, p.Unfinished kind

/-- What can be done to a channel. -/
inductive Action (F : Type)
  | process (frame : F)
  | reset
  | withStrict (strict : Bool)
  | register (listener : Nat)

variable {F : Type} [ChannelFrame F]

def act (c : Channel) : Action F → Channel
  | .process f => (c.process f).channel
  | .reset => c.reset
  | .withStrict strict => c.withStrict strict
  | .register listener => c.register listener

theorem processBitstream_channel (c : Channel) (f : F) : (c.processBitstream f).channel = c := by
  rw [processBitstream]
  split
  · rfl
  split
  · rfl
  split <;> rfl

/-- Without packets, the contents of a frame change nothing. -/
theorem processContents_channel {c : Channel} (hm : c.mode = .data ∨ c.mode = .bitstream) (f : F)
    (gap : Bool) : (c.processContents f gap).channel = c := by
  rw [processContents]
  rcases hm with hm | hm <;> rw [hm]
  exact processBitstream_channel c f

/-- What is in flight is what the reassembly of packets for this mode leaves behind. -/
structure Reassembles (c : Channel) (mode : AccessMode) : Prop where
  mode_eq : c.mode = mode
  none_inFlight : mode = .data ∨ mode = .bitstream → c.inFlight? = none
  suspended : ∀ kind : PacketKind, mode = kind.mode → ∀ p ∈ c.inFlight?, p.Suspended kind

namespace Reassembles

variable {c : Channel} {mode : AccessMode}

theorem of_none (hm : c.mode = mode) (h : c.inFlight? = none) : c.Reassembles mode where
  mode_eq := hm
  none_inFlight _ := h
  suspended _ _ p hp := by
    rw [h] at hp
    cases hp

theorem wellFormed (h : c.Reassembles mode) : c.WellFormed where
  none_inFlight hm := h.none_inFlight (h.mode_eq ▸ hm)
  unfinished kind hm p hp := (h.suspended kind (h.mode_eq ▸ hm) p hp).unfinished

/-- What is in flight may be replaced as long as it fits the one kind of packet of the channel. -/
theorem of_packets {kind : PacketKind} (hm : c.mode = kind.mode)
    (hs : ∀ p ∈ c.inFlight?, p.Suspended kind) : c.Reassembles kind.mode where
  mode_eq := hm
  none_inFlight h := by cases kind <;> simp [PacketKind.mode] at h
  suspended kind' hk p hp := by
    obtain rfl : kind = kind' := by
      revert hk
      cases kind <;> cases kind' <;> simp [PacketKind.mode]
    exact hs p hp

/-- Frames without packets leave what is in flight as it is. -/
theorem process_other (h : c.Reassembles mode) (hm : mode = .data ∨ mode = .bitstream) (f : F) :
    (c.process f).channel.Reassembles mode := by
  have hnone := h.none_inFlight hm
  rw [← h.mode_eq] at hm
  rw [process]
  split
  · exact h
  · dsimp only
    rw [processContents_channel (by exact hm)]
    exact .of_none h.mode_eq hnone

theorem process_packets (kind : PacketKind) (h : c.Reassembles kind.mode) (f : F) :
    (c.process f).channel.Reassembles kind.mode := by
  have hs := h.suspended kind rfl
  have hc : ∀ p ∈ c.continued f, p.Suspended kind := by
    rw [continued]
    split
    · intro p hp
      cases hp
    · exact hs
  by_cases hv : ChannelFrame.vcid f = c.vcid
  · cases hi : ChannelFrame.isIdle f with
    | true =>
      rw [(process_idle hv h.mode_eq hi).1]
      exact .of_packets h.mode_eq hs
    | false =>
      cases hz : ChannelFrame.packetField f with
      | error e =>
        rw [(process_unusable hv h.mode_eq hi hz).1]
        exact .of_packets h.mode_eq hc
      | ok field =>
        obtain ⟨zone, start?⟩ := field
        obtain ⟨_, _, _, _, _, hrest⟩ := advance_placement hc zone start?
        rw [(process_zone hv h.mode_eq hi hz).1]
        exact .of_packets h.mode_eq fun p hp => (hrest p hp).1
  · rw [(process_of_vcid_ne hv).1]
    exact h

/-- Every single action keeps the invariant. -/
theorem act (h : c.Reassembles mode) (a : Action F) : (c.act a).Reassembles mode := by
  cases a with
  | process f =>
    cases mode with
    | packet => exact process_packets .space h f
    | encapsulation => exact process_packets .encapsulation h f
    | data => exact h.process_other (.inl rfl) f
    | bitstream => exact h.process_other (.inr rfl) f
  | reset => exact .of_none h.mode_eq rfl
  | withStrict strict => exact ⟨h.mode_eq, h.none_inFlight, h.suspended⟩
  | register listener => exact ⟨h.mode_eq, h.none_inFlight, h.suspended⟩

theorem run (h : c.Reassembles mode) (actions : List (Action F)) :
    (actions.foldl Channel.act c).Reassembles mode := by
  induction actions generalizing c with
  | nil => exact h
  | cons a actions ih => exact ih (h.act a)

end Reassembles

/-- Whatever is done to a new channel, what is in flight is an unfinished packet of its kind, and
the next frame is taken without leaving the range of any number or of a zone. -/
theorem wellFormed_run (vcid : Nat) (mode : AccessMode) (strict : Bool) (listeners : List Nat)
    (actions : List (Action F)) :
    let c := actions.foldl act { vcid, mode, strict, listeners }
    c.mode = mode ∧ c.WellFormed ∧ ∀ f : F, Checked.process c f = some (c.process f) := by
  intro c
  have h : c.Reassembles mode := Reassembles.run (.of_none rfl rfl) actions
  exact ⟨h.mode_eq, h.wellFormed,
    Checked.process_eq fun kind hm => h.suspended kind (h.mode_eq ▸ hm)⟩

end Channel

end SpaceLink
