import SpaceLink.Proofs.Channel.Carrier

/-!
# Where the frames of a transmission are in its stream

Each sent frame carries the stretch of the stream from `offset sent j` up to `offset sent (j + 1)`,
an idle frame none of it (`Sends.slot`). `holder sent k` is the frame that holds the byte at offset
`k`.
-/

namespace SpaceLink

/-- The bytes of packets that a frame carries. -/
def ChannelFrame.payload {F : Type} [ChannelFrame F] (f : F) : Bytes :=
  if isIdle f then []
  else match packetField f with
    | .ok (zone, _) => zone
    | .error _ => []

section Offset

variable {F : Type} [ChannelFrame F] (sent : List F)

/-- The number of bytes of packets before a frame. -/
def offset (j : Nat) : Nat := ((sent.take j).flatMap ChannelFrame.payload).length

@[simp] theorem offset_zero : offset sent 0 = 0 := rfl

theorem offset_cons_succ (f : F) (j : Nat) :
    offset (f :: sent) (j + 1) = (ChannelFrame.payload f).length + offset sent j := by
  rw [offset, offset, List.take_succ_cons, List.flatMap_cons, List.length_append]

theorem offset_le_succ (j : Nat) : offset sent j ≤ offset sent (j + 1) := by
  induction sent generalizing j with
  | nil => simp [offset]
  | cons f sent ih =>
    cases j with
    | zero => simp
    | succ j =>
      rw [offset_cons_succ, offset_cons_succ]
      exact Nat.add_le_add_left (ih j) _

theorem offset_mono {i j : Nat} (h : i ≤ j) : offset sent i ≤ offset sent j := by
  induction h with
  | refl => exact Nat.le_refl _
  | step _ ih => exact Nat.le_trans ih (offset_le_succ sent _)

theorem lt_of_offset_lt {i j : Nat} (h : offset sent i < offset sent j) : i < j :=
  Nat.not_le.mp fun hle => Nat.not_le.mpr h (offset_mono sent hle)

/-- The frame that holds the byte of the stream at an offset. -/
def holder (k : Nat) : Nat := (List.range sent.length).findIdx fun j => k < offset sent (j + 1)

variable {sent} {k : Nat} (j : Fin sent.length)

theorem holder_le_iff : holder sent k ≤ j ↔ k < offset sent (j + 1) := by
  have hj : j.val < (List.range sent.length).length := by
    rw [List.length_range]
    exact j.isLt
  constructor
  · intro h
    rw [holder] at h
    have hk := List.findIdx_getElem (w := Nat.lt_of_le_of_lt h hj)
    rw [List.getElem_range, decide_eq_true_eq] at hk
    exact Nat.lt_of_lt_of_le hk (offset_mono sent (Nat.succ_le_succ h))
  · intro h
    refine Nat.not_lt.mp fun hlt => ?_
    have hk := List.not_of_lt_findIdx hlt
    rw [List.getElem_range, decide_eq_false_iff_not] at hk
    exact hk h

theorem le_holder_iff : j ≤ holder sent k ↔ offset sent j ≤ k := by
  obtain ⟨j, hj⟩ := j
  cases j with
  | zero => simp
  | succ j =>
    have := holder_le_iff (k := k) ⟨j, Nat.lt_of_succ_lt hj⟩
    dsimp only at this ⊢
    omega

end Offset

variable {F : Type} [PacketCarrier F] {starts : List Nat} {s : Bytes}

/-- A frame that carries the stretch of the stream `s` between two offsets. -/
inductive Slot (starts : List Nat) (s : Bytes) (f : F) (o o' : Nat) : Prop
  | idle : ChannelFrame.isIdle f = true → o' = o → Slot starts s f o o'
  | zone : ChannelFrame.isIdle f = false → o < o' → o' ≤ s.length →
      ChannelFrame.packetField f = .ok (Bytes.between o o' s, firstIn? starts o o') →
      Slot starts s f o o'

theorem ChannelFrame.payload_of_isIdle {f : F} (h : isIdle f = true) : payload f = [] := if_pos h

theorem ChannelFrame.payload_of_packetField {f : F} {zone : Bytes} {start? : Option Nat}
    (hi : isIdle f = false) (h : packetField f = .ok (zone, start?)) : payload f = zone := by
  rw [payload, hi, h]
  rfl

/-- What the frames carry, all in all. -/
theorem Sends.flatMap_payload {o : Nat} {zones : List Bytes} {sent : List F}
    (h : Sends starts o zones sent) : sent.flatMap ChannelFrame.payload = zones.flatten := by
  induction h with
  | done => rfl
  | idle hi _ ih =>
    rw [List.flatMap_cons, ih, ChannelFrame.payload_of_isIdle hi, List.nil_append]
  | zone _ hlen hcarry _ ih =>
    obtain ⟨hi, hfield⟩ := PacketCarrier.usable_of_carries hlen hcarry
    rw [List.flatMap_cons, ih, ChannelFrame.payload_of_packetField hi hfield, List.flatten_cons]

/-- The frames carry the stream stretch by stretch. -/
theorem Sends.slot {o : Nat} {zones : List Bytes} {sent : List F} (h : Sends starts o zones sent)
    (hs : s.drop o = zones.flatten) (j : Fin sent.length) :
    Slot starts s (sent.get j) (o + offset sent j) (o + offset sent (j + 1)) := by
  induction h with
  | done => exact j.elim0
  | @idle o zones f fs hi _ ih =>
    obtain ⟨j, hj⟩ := j
    have hl : (ChannelFrame.payload f).length = 0 := by
      rw [ChannelFrame.payload_of_isIdle hi, List.length_nil]
    cases j with
    | zero =>
      exact .idle hi (by rw [offset_cons_succ, hl]; rfl)
    | succ j =>
      have := ih hs ⟨j, Nat.lt_of_succ_lt_succ hj⟩
      rw [offset_cons_succ, offset_cons_succ, hl, Nat.zero_add, Nat.zero_add]
      exact this
  | @zone o zone zones f fs hne hlen hcarry _ ih =>
    obtain ⟨j, hj⟩ := j
    obtain ⟨hi, hfield⟩ := PacketCarrier.usable_of_carries hlen hcarry
    obtain ⟨hzone, hlt, hend, hrest⟩ := zone_of_drop hne hs
    have hpay := ChannelFrame.payload_of_packetField hi hfield
    cases j with
    | zero =>
      rw [offset_cons_succ, hpay]
      refine .zone hi hlt hend ?_
      show ChannelFrame.packetField f = .ok (Bytes.between o (o + zone.length) s, _)
      rw [hzone]
      exact hfield
    | succ j =>
      have := ih hrest ⟨j, Nat.lt_of_succ_lt_succ hj⟩
      rw [offset_cons_succ, offset_cons_succ, hpay, ← Nat.add_assoc, ← Nat.add_assoc]
      exact this

end SpaceLink
