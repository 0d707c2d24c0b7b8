import SpaceLink.Proofs.Channel.Run
import SpaceLink.Proofs.Channel.Stream

/-!
# Frames that carry a stream of packets

The sender's side. `PacketCarrier.Carries f zone start?` says how a frame is made that carries the
stretch `zone` of a stream, in which the first packet to start does so at `start?`; the first header
pointer then holds that offset, or the value that stands for no packet. `Sends` is a stream cut into
zones that successive frames carry, with idle frames anywhere.
-/

namespace SpaceLink

/-- The longest zone in which every offset can be pointed to. -/
def maxZoneLength : Nat := 2046

class PacketCarrier (F : Type) extends ChannelFrame F where
  /-- The frame carries `zone`, and its pointer says where the first packet starts. -/
  Carries : F → Bytes → Option Nat → Prop
  /-- A channel finds in such a frame what it carries. -/
  usable : ∀ {f : F} {zone : Bytes} {start? : Option Nat}, (∀ start ∈ start?, start < maxZoneLength) →
    Carries f zone start? →
      ChannelFrame.isIdle f = false ∧ ChannelFrame.packetField f = .ok (zone, start?)

/-- A pointer that is no more than an offset in a zone, or the value for no packet, is not the value
for idle data, and is read back as what it stands for. -/
private theorem read_pointer {start? : Option Nat} (h : ∀ start ∈ start?, start < maxZoneLength) :
    start?.getD 0x7ff ≠ 0x7fe ∧
      (if start?.getD 0x7ff = 0x7ff then none else some (start?.getD 0x7ff)) = start? := by
  cases start? with
  | none => exact ⟨by decide, rfl⟩
  | some start =>
    have := h start rfl
    rw [maxZoneLength] at this
    rw [Option.getD_some, if_neg (by omega)]
    exact ⟨by omega, rfl⟩

namespace Tm

/-- The data field of the frame is synchronised to packets, and the pointer leads to the first. -/
def Frame.Carries (f : Frame) (zone : Bytes) (start? : Option Nat) : Prop :=
  f.header.sync = false ∧ f.dataField = zone ∧
    f.header.firstHeaderPointer = start?.getD noPacketPointer

instance : PacketCarrier Frame where
  Carries := Frame.Carries
  usable := by
    rintro f _ start? hs ⟨hsync, rfl, hp⟩
    obtain ⟨hne, hif⟩ := read_pointer hs
    have hi : f.isIdle = false := by
      rw [Frame.isIdle, hp]
      exact beq_eq_false_iff_ne.mpr hne
    refine ⟨hi, ChannelFrame.packetField_eq_ok_iff.mpr ⟨rfl, ?_⟩⟩
    show f.firstPacket = _
    rw [Frame.firstPacket, hi, hsync, Frame.containsNoPacketStart, hp, ← congrArg Except.ok hif]
    simp only [Bool.false_eq_true, if_false, beq_iff_eq]
    exact (apply_ite Except.ok _ _ _).symm

/-- A frame of a primary header and data that are synchronised to packets. -/
def Frame.plain (vcid : Nat) (count : UInt8) (pointer : Nat) (zone : Bytes) : Frame :=
  let header : Header := {
    version, scid := 0, vcid, ocfPresent := false, mcFrameCount := count, vcFrameCount := count
    secondaryHeaderPresent := false, sync := false, packetOrder := false, segmentLengthId := 3
    firstHeaderPointer := pointer }
  { header, bytes := header.encode ++ zone
    overhead := {
      headers := headerLength, securityHeader := 0, securityTrailer := 0, ocfPresent := false
      fecfPresent := false }
    fits := by
      rw [List.length_append]
      exact Nat.le_add_right headerLength zone.length }

theorem Frame.carries_plain (vcid : Nat) (count : UInt8) (zone : Bytes) (start? : Option Nat) :
    (Frame.plain vcid count (start?.getD noPacketPointer) zone).Carries zone start? := by
  refine ⟨rfl, ?_, rfl⟩
  rw [FrameBytes.dataField, Bytes.slice, FrameBytes.dataFieldLength]
  have hd : ((Frame.plain vcid count (start?.getD noPacketPointer) zone).bytes.drop headerLength) =
      zone := List.drop_left' rfl
  refine (congrArg (List.take _) hd).trans (List.take_of_length_le ?_)
  rw [Frame.plain, List.length_append]
  show zone.length ≤ headerLength + zone.length - headerLength
  exact Nat.le_of_eq (Nat.add_sub_cancel_left ..).symm

end Tm

namespace Aos

/-- The data field of the frame is an M_PDU, and the pointer leads to the first packet. -/
def Frame.Carries (f : Frame) (zone : Bytes) (start? : Option Nat) : Prop :=
  f.userDataType = .mpdu ∧ f.header.vcid ≠ idleVcid ∧ f.pduZone = zone ∧
    f.pointer? = some (start?.getD noPacketPointer)

instance : PacketCarrier Frame where
  Carries := Frame.Carries
  usable := by
    rintro f _ start? hs ⟨ht, hv, rfl, hp⟩
    obtain ⟨hne, hif⟩ := read_pointer hs
    have hi : f.isIdle = false := by
      rw [Frame.isIdle, ht, hp]
      simp only [Bool.or_eq_false_iff, beq_eq_false_iff_ne]
      exact ⟨hv, fun h => hne (Option.some.inj h)⟩
    have hfirst : f.firstHeaderPointer = .ok (start?.getD noPacketPointer) := by
      rw [Frame.firstHeaderPointer, Frame.pointerFor, if_pos ht, hp]
    refine ⟨hi, ChannelFrame.packetField_eq_ok_iff.mpr ⟨?_, ?_⟩⟩
    · show f.packetZone = _
      rw [Frame.packetZone, hfirst]
      rfl
    · show f.firstPacket = _
      rw [Frame.firstPacket, hi, hfirst]
      exact congrArg Except.ok hif

end Aos

/-! ## Sending -/

/-- The frames carry the zones one after the other, from the offset given on, in a stream whose
packets start at the offsets `starts`. There may be idle frames anywhere. -/
inductive Sends {F : Type} [PacketCarrier F] (starts : List Nat) :
    Nat → List Bytes → List F → Prop
  | done {o} : Sends starts o [] []
  | zone {o zone zones f fs} : zone ≠ [] → zone.length ≤ maxZoneLength →
      PacketCarrier.Carries f zone (firstIn? starts o (o + zone.length)) →
      Sends starts (o + zone.length) zones fs → Sends starts o (zone :: zones) (f :: fs)
  | idle {o zones f fs} : ChannelFrame.isIdle f = true → Sends starts o zones fs →
      Sends starts o zones (f :: fs)

/-- Where the next zone is in the stream. -/
theorem zone_of_drop {s zone : Bytes} {o : Nat} {zones : List Bytes} (hne : zone ≠ [])
    (h : s.drop o = (zone :: zones).flatten) :
    Bytes.between o (o + zone.length) s = zone ∧ o < o + zone.length ∧
      o + zone.length ≤ s.length ∧ s.drop (o + zone.length) = zones.flatten := by
  have hpos := List.length_pos_iff.mpr hne
  have hlen := congrArg List.length h
  rw [List.length_drop, List.flatten_cons, List.length_append] at hlen
  refine ⟨Bytes.between_of_drop h, Nat.lt_add_of_pos_right hpos, by omega, ?_⟩
  rw [← List.drop_drop, h, List.flatten_cons, List.drop_left]

/-- A channel finds in a frame the zone that the frame was made to carry. -/
theorem PacketCarrier.usable_of_carries {F : Type} [PacketCarrier F] {starts : List Nat} {o : Nat}
    {zone : Bytes} {f : F} (hl : zone.length ≤ maxZoneLength)
    (hc : Carries f zone (firstIn? starts o (o + zone.length))) :
    ChannelFrame.isIdle f = false ∧
      ChannelFrame.packetField f = .ok (zone, firstIn? starts o (o + zone.length)) := by
  refine usable (fun start hs => ?_) hc
  have := firstIn?_lt hs
  omega

/-- The frames are numbered consecutively, modulo the number of counts, from `n` on. -/
def Numbered {F : Type} [ChannelFrame F] (n : Nat) (fs : List F) : Prop :=
  ∀ i : Fin fs.length,
    ChannelFrame.frameCount (fs.get i) = (n + i) % ChannelFrame.countModulus F

theorem Numbered.head {F : Type} [ChannelFrame F] {n : Nat} {f : F} {fs : List F}
    (h : Numbered n (f :: fs)) :
    ChannelFrame.frameCount f = n % ChannelFrame.countModulus F := h ⟨0, Nat.zero_lt_succ _⟩

theorem Numbered.tail {F : Type} [ChannelFrame F] {n : Nat} {f : F} {fs : List F}
    (h : Numbered n (f :: fs)) : Numbered (n + 1) fs := by
  intro i
  have := h i.succ
  rw [Fin.val_succ, Nat.add_comm i.val 1, ← Nat.add_assoc] at this
  exact this

/-- A frame whose count follows the last one shows no gap. -/
theorem Channel.gap?_eq_none {F : Type} [ChannelFrame F] {c : Channel} {f : F}
    (h : ∀ last ∈ c.lastCount?,
      ChannelFrame.frameCount f = (last + 1) % ChannelFrame.countModulus F) :
    c.gap? f = none := by
  rw [Channel.gap?]
  split
  · cases hl : c.lastCount? with
    | none => rfl
    | some last =>
      rw [Gap.between?]
      exact if_pos (h last hl)
  · rfl

end SpaceLink
