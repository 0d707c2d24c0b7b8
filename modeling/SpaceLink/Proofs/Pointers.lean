import Mathlib.Algebra.Order.Floor.Div
import SpaceLink.Proofs.Tm.Frame
import SpaceLink.Proofs.Aos.Frame
import SpaceLink.Proofs.Channel.Events

/-!
# Pointers stay inside their zones

The decoders let pointers pass that lead into the zone that they see behind the headers, or that do
not point. What a channel takes for the zone is the same bytes, and it does not take a value that
does not point for one that does. So the limits that a channel sets for itself, the end of the zone
for a packet (`ChannelFrame.PointsInside`) and its length for a bitstream
(`Aos.Frame.CountsInside`), are not reached: `pointers_inside`.
-/

namespace SpaceLink

/-- The first packet that starts in the frame, if one does, starts before the end of the zone. So
the end of the zone is no limit to it. -/
structure ChannelFrame.PointsInside {F : Type} [ChannelFrame F] (f : F) (zone : Bytes)
    (start? : Option Nat) : Prop where
  packetZone : packetZone f = .ok zone
  firstPacket : firstPacket f = .ok start?
  lt : ∀ start ∈ start?, start < zone.length
  unlimited : start?.map (min · zone.length) = start?

namespace ChannelFrame.PointsInside

variable {F : Type} [ChannelFrame F] {f : F} {zone : Bytes}

theorem of_none (hz : ChannelFrame.packetZone f = .ok zone)
    (hp : ChannelFrame.firstPacket f = .ok none) : PointsInside f zone none :=
  ⟨hz, hp, nofun, rfl⟩

theorem of_lt {start : Nat} (hz : ChannelFrame.packetZone f = .ok zone)
    (hp : ChannelFrame.firstPacket f = .ok (some start)) (h : start < zone.length) :
    PointsInside f zone (some start) where
  packetZone := hz
  firstPacket := hp
  lt := by
    intro start' hstart
    obtain rfl := Option.some.inj hstart
    exact h
  unlimited := congrArg some (Nat.min_eq_left (Nat.le_of_lt h))

theorem packetField {start? : Option Nat} (h : PointsInside f zone start?) :
    ChannelFrame.packetField f = .ok (zone, start?) :=
  packetField_eq_ok_iff.mpr ⟨h.packetZone, h.firstPacket⟩

end ChannelFrame.PointsInside

/-- The bitstream of a frame that a channel can use is delivered as far as its bits are valid. -/
theorem Channel.process_bitstream {F : Type} [ChannelFrame F] {c : Channel} {f : F} {zone : Bytes}
    {count : Nat} (hm : c.mode = .bitstream) (hv : ChannelFrame.vcid f = c.vcid)
    (hi : ChannelFrame.isIdle f = false) (hs : ChannelFrame.isSync f = false)
    (h : ChannelFrame.bitstream f = .ok (zone, count)) :
    (c.process f).result = .ok () ∧
      (c.process f).events = .frameReceived :: ((c.gap? f).toList.map .gapDetected ++
        [.bitstreamExtracted (zone.take (count ⌈/⌉ 8)) count]) := by
  constructor
  · simp [process, processContents, processBitstream, hv, hm, hi, hs, h]
  · rw [events_own hv]
    simp [processContents, processBitstream, hm, hi, hs, h, Nat.ceilDiv_eq_add_pred_div]

/-! ## TM frames -/

namespace Tm

theorem checkPointer_eq_ok_iff {h : Header} {zoneLength : Nat} :
    checkPointer h zoneLength = .ok () ↔
      (h.sync = false → h.firstHeaderPointer ≠ idlePointer →
        h.firstHeaderPointer ≠ noPacketPointer → h.firstHeaderPointer < zoneLength) := by
  rw [checkPointer, Header.pointerIsSentinel]
  split
  · simp_all
  · simp_all

theorem Frame.Decodes.pointsInside {f : Frame} {d : Bytes} {config : Config} (h : f.Decodes d config)
    (hi : f.isIdle = false) (hs : f.header.sync = false) :
    ∃ zone start?, ChannelFrame.PointsInside f zone start? := by
  have hidle : f.header.firstHeaderPointer ≠ idlePointer := by simpa [isIdle] using hi
  have hfirst : f.firstPacket = if f.containsNoPacketStart then .ok none
      else .ok (some f.header.firstHeaderPointer) := by
    rw [firstPacket, hi, hs]
    rfl
  refine ⟨f.dataField, ?_⟩
  cases hnone : f.containsNoPacketStart with
  | true =>
    rw [hnone] at hfirst
    exact ⟨none, .of_none rfl hfirst⟩
  | false =>
    rw [hnone] at hfirst
    have hpoints : f.header.firstHeaderPointer ≠ noPacketPointer := by
      simpa [containsNoPacketStart] using hnone
    refine ⟨some f.header.firstHeaderPointer, .of_lt rfl hfirst ?_⟩
    rw [f.length_dataField]
    exact checkPointer_eq_ok_iff.mp h.pointer hs hidle hpoints

end Tm

/-! ## AOS frames -/

namespace Aos

theorem checkFirstHeader_eq_ok_iff {pointer zoneLength : Nat} :
    checkFirstHeader pointer zoneLength = .ok () ↔
      (pointer ≠ idlePointer → pointer ≠ noPacketPointer → pointer < zoneLength) := by
  rw [checkFirstHeader]
  split
  · simp_all
  · simp_all

theorem checkBitstream_eq_ok_iff {pointer zoneLength : Nat} :
    checkBitstream pointer zoneLength = .ok () ↔
      (pointer ≠ idleBitstream → pointer ≠ fullBitstream → pointer ≤ zoneLength * 8) := by
  rw [checkBitstream]
  split
  · simp_all
  · simp_all

/-- The number of bits that a bitstream data pointer counts. -/
def countedBits (pointer zoneLength : Nat) : Nat :=
  if pointer = idleBitstream then 0
  else if pointer = fullBitstream then 8 * zoneLength
  else pointer

theorem countedBits_le {pointer zoneLength : Nat} (h : checkBitstream pointer zoneLength = .ok ()) :
    countedBits pointer zoneLength ≤ 8 * zoneLength := by
  rw [countedBits]
  split
  · exact Nat.zero_le _
  split
  · exact Nat.le_refl _
  · rw [Nat.mul_comm]
    exact checkBitstream_eq_ok_iff.mp h ‹_› ‹_›

namespace Frame

variable {f : Frame} {d : Bytes} {config : Config} {pointer : Nat}

theorem validBits_eq (h : f.bitstreamDataPointer = .ok pointer) :
    f.validBits = .ok (countedBits pointer f.pduZone.length) := by
  rw [validBits, h, ok_bind, countedBits, Nat.mul_comm]
  by_cases hidle : pointer = idleBitstream
  · rw [hidle]
    rfl
  by_cases hfull : pointer = fullBitstream
  · rw [hfull]
    rfl
  · rw [if_neg hfull, if_neg hidle, if_neg hidle, if_neg hfull]
    rfl

theorem pointerFor_eq_ok_iff {required : UserDataType} {field : Field} :
    f.pointerFor required field = .ok pointer ↔
      f.userDataType = required ∧ f.pointer? = some pointer := by
  rw [pointerFor]
  by_cases ht : f.userDataType = required
  · rw [if_pos ht]
    cases f.pointer? <;> simp [ht]
  · simp [ht]

/-- The zone that the pointer was checked for is the one that follows it. -/
theorem Decodes.checked (h : f.Decodes d config) (hp : f.pointer? = some pointer) :
    (if f.userDataType = .mpdu then checkFirstHeader pointer f.pduZone.length
      else checkBitstream pointer f.pduZone.length) = .ok () := by
  have hpdu := h.pdu
  rw [← h.userDataType, checkPdu, ← pointer?, hp] at hpdu
  rw [pduZone, List.length_drop]
  dsimp only at hpdu
  split at hpdu
  · cases hpdu
  · exact hpdu

theorem Decodes.pointsInside (h : f.Decodes d config) (ht : f.userDataType = .mpdu)
    (hi : f.isIdle = false) : ∃ zone start?, ChannelFrame.PointsInside f zone start? := by
  obtain ⟨pointer, -, hpointer⟩ :=
    (f.pointerFor_eq .firstHeaderPointer (.inl rfl)).resolve_right fun h => h.1 ht
  have hp := (pointerFor_eq_ok_iff.mp hpointer).2
  have hidle : pointer ≠ idlePointer := by
    simp only [isIdle, ht, hp, Bool.or_eq_false_iff, beq_eq_false_iff_ne] at hi
    exact fun heq => hi.2 (congrArg some heq)
  have hfirst : f.firstPacket = .ok (if pointer = noPacketPointer then none else some pointer) := by
    rw [firstPacket, hi, firstHeaderPointer, hpointer]
    rfl
  have hchecked := h.checked hp
  rw [if_pos ht] at hchecked
  refine ⟨f.pduZone, ?_⟩
  by_cases hnone : pointer = noPacketPointer
  · rw [if_pos hnone] at hfirst
    exact ⟨none, .of_none (packetZone_of_mpdu ht) hfirst⟩
  · rw [if_neg hnone] at hfirst
    exact ⟨some pointer, .of_lt (packetZone_of_mpdu ht) hfirst
      (checkFirstHeader_eq_ok_iff.mp hchecked hidle hnone)⟩

/-- The valid bits of the bitstream are in its zone, and channels deliver all bytes that have one of
them. So the length of the zone is no limit to them. -/
structure CountsInside (f : Frame) (pointer : Nat) (zone : Bytes) (count : Nat) : Prop where
  bitstreamDataPointer : f.bitstreamDataPointer = .ok pointer
  bitstreamZone : f.bitstreamZone = .ok zone
  validBits : f.validBits = .ok count
  counted : count = countedBits pointer zone.length
  le : count ≤ 8 * zone.length
  unlimited : min (count ⌈/⌉ 8) zone.length = count ⌈/⌉ 8
  delivered : ∀ c : Channel, c.mode = .bitstream → f.header.vcid = c.vcid → f.isIdle = false →
    (c.process f).result = .ok () ∧
      (c.process f).events = .frameReceived :: ((c.gap? f).toList.map .gapDetected ++
        [.bitstreamExtracted (zone.take (count ⌈/⌉ 8)) count])

theorem Decodes.countsInside (h : f.Decodes d config) (ht : f.userDataType = .bpdu) :
    ∃ pointer zone count, f.CountsInside pointer zone count := by
  obtain ⟨pointer, -, hpointer⟩ :=
    (f.pointerFor_eq .bitstreamDataPointer (.inr rfl)).resolve_right fun h => h.1 ht
  have hp := (pointerFor_eq_ok_iff.mp hpointer).2
  have hzone : f.bitstreamZone = .ok f.pduZone := bitstreamZone_of_bpdu ht
  have hcount := validBits_eq hpointer
  have hchecked := h.checked hp
  rw [if_neg (by simp [ht])] at hchecked
  have hle := countedBits_le hchecked
  refine ⟨pointer, f.pduZone, _, hpointer, hzone, hcount, rfl, hle, ?_, fun c hm hv hi => ?_⟩
  · exact Nat.min_eq_left ((ceilDiv_le_iff_le_mul (by decide)).mpr hle)
  · have hbitstream : ChannelFrame.bitstream f =
        .ok (f.pduZone, countedBits pointer f.pduZone.length) := by
      show (do return (← f.bitstreamZone, ← f.validBits)) = _
      rw [hzone, hcount]
      rfl
    exact Channel.process_bitstream hm hv hi rfl hbitstream

end Frame

end Aos

/-- Pointers that a decoder has let pass stay inside: no packet starts beyond the end of the zone,
and no bit of a bitstream is valid there, so that a channel delivers all valid ones. -/
theorem pointers_inside :
    (∀ (d : Bytes) (config : Tm.Config) (f : Tm.Frame), Tm.Frame.decode d config = .ok f →
      f.isIdle = false → f.header.sync = false →
      ∃ zone start?, ChannelFrame.PointsInside f zone start?) ∧
    (∀ (d : Bytes) (config : Aos.Config) (f : Aos.Frame), Aos.Frame.decode d config = .ok f →
      f.isIdle = false → f.userDataType = .mpdu →
      ∃ zone start?, ChannelFrame.PointsInside f zone start?) ∧
    ∀ (d : Bytes) (config : Aos.Config) (f : Aos.Frame), Aos.Frame.decode d config = .ok f →
      f.userDataType = .bpdu → ∃ pointer zone count, f.CountsInside pointer zone count := by
  refine ⟨fun d config f hf hi hs => ?_, fun d config f hf hi ht => ?_, fun d config f hf ht => ?_⟩
  · exact (Tm.Frame.decode_eq_ok_iff.mp hf).pointsInside hi hs
  · exact (Aos.Frame.decode_eq_ok_iff.mp hf).pointsInside ht hi
  · exact (Aos.Frame.decode_eq_ok_iff.mp hf).countsInside ht

/-- A packet starts with the last byte of the zone, and a bitstream is all of it. -/
theorem pointers_inside_last_byte :
    let tm : Bytes := [0x12, 0x34, 1, 2, 0x18, 0x01, 0xaa, 0xbb]
    let mpdu : Bytes := [0x4a, 0x45, 1, 2, 3, 0x40, 0x00, 0x01, 0xaa, 0xbb]
    let bpdu : Bytes := [0x4a, 0x45, 1, 2, 3, 0x40, 0x3f, 0xff, 0xaa, 0xbb]
    (∃ f, Tm.Frame.decode tm { fecfPresent := false } = .ok f ∧
      ChannelFrame.PointsInside f [0xaa, 0xbb] (some 1)) ∧
    (∃ f, Aos.Frame.decode mpdu { fecfPresent := false } = .ok f ∧
      ChannelFrame.PointsInside f [0xaa, 0xbb] (some 1)) ∧
    ∃ f, Aos.Frame.decode bpdu { fecfPresent := false, userDataType := .bpdu } = .ok f ∧
      f.CountsInside Aos.fullBitstream [0xaa, 0xbb] 16 := by
  intro tm mpdu bpdu
  refine ⟨?_, ?_, ?_⟩
  · obtain ⟨f, hf, hp⟩ := exists_of_any (x := Tm.Frame.decode tm { fecfPresent := false })
      (p := fun f => !f.isIdle && !f.header.sync &&
        decide ((ChannelFrame.packetField f).toOption = some ([0xaa, 0xbb], some 1)))
      (by decide +kernel)
    simp only [Bool.and_eq_true, Bool.not_eq_true', decide_eq_true_eq] at hp
    obtain ⟨⟨hi, hs⟩, hfield⟩ := hp
    obtain ⟨zone, start?, h⟩ := pointers_inside.1 tm _ f hf hi hs
    rw [h.packetField] at hfield
    cases hfield
    exact ⟨f, hf, h⟩
  · obtain ⟨f, hf, hp⟩ := exists_of_any (x := Aos.Frame.decode mpdu { fecfPresent := false })
      (p := fun f => !f.isIdle && decide (f.userDataType = .mpdu) &&
        decide ((ChannelFrame.packetField f).toOption = some ([0xaa, 0xbb], some 1)))
      (by decide +kernel)
    simp only [Bool.and_eq_true, Bool.not_eq_true', decide_eq_true_eq] at hp
    obtain ⟨⟨hi, ht⟩, hfield⟩ := hp
    obtain ⟨zone, start?, h⟩ := pointers_inside.2.1 mpdu _ f hf hi ht
    rw [h.packetField] at hfield
    cases hfield
    exact ⟨f, hf, h⟩
  · obtain ⟨f, hf, hp⟩ := exists_of_any
      (x := Aos.Frame.decode bpdu { fecfPresent := false, userDataType := .bpdu })
      (p := fun f => decide (f.userDataType = .bpdu) &&
        decide (f.bitstreamDataPointer.toOption = some Aos.fullBitstream) &&
        decide (f.bitstreamZone.toOption = some [0xaa, 0xbb])) (by decide +kernel)
    simp only [Bool.and_eq_true, decide_eq_true_eq] at hp
    obtain ⟨⟨ht, hpointer⟩, hzone⟩ := hp
    obtain ⟨pointer, zone, count, h⟩ := pointers_inside.2.2 bpdu _ f hf ht
    rw [h.bitstreamDataPointer] at hpointer
    rw [h.bitstreamZone] at hzone
    cases hpointer
    cases hzone
    have hcount : count = 16 := h.counted
    exact ⟨f, hf, hcount ▸ h⟩

end SpaceLink
