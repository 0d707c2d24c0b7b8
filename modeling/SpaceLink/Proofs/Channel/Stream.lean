import SpaceLink.Proofs.Channel.Reassembly

/-!
# Consecutive zones of a stream

The zones of successive frames are stretches of one stream (`Bytes.between`), and each comes with
the first packet that starts in it (`firstIn?`). A receiver that begins at the offset `w` with
nothing in flight finds its first packet at `resync kind s w`. From there on it has, after each
further zone, exactly the packets and the packet in flight of the stretch that begins there
(`advance_between`).
-/

namespace SpaceLink

namespace Bytes

variable {a b c : Nat} {d : Bytes}

theorem length_between (a b : Nat) (d : Bytes) :
    (between a b d).length = min b d.length - a := by
  rw [between, List.length_drop, List.length_take]

theorem between_of_le (h : b ≤ a) : between a b d = [] := by
  rw [between, List.drop_eq_nil_iff, List.length_take]
  omega

theorem between_append (hab : a ≤ b) (hbc : b ≤ c) :
    between a b d ++ between b c d = between a c d := by
  rw [between, between, between, ← List.take_append_drop (b - a) ((d.take c).drop a)]
  congr 1
  · rw [← List.drop_take, List.take_take, Nat.min_eq_left hbc]
  · rw [List.drop_drop, Nat.add_sub_cancel' hab]

theorem drop_between (a b n : Nat) (d : Bytes) : (between a b d).drop n = between (a + n) b d := by
  rw [between, between, List.drop_drop]

/-- The stretch that the rest of a stream begins with. -/
theorem between_of_drop {zone rest : Bytes} (h : d.drop a = zone ++ rest) :
    between a (a + zone.length) d = zone := by
  rw [between, List.drop_take, Nat.add_sub_cancel_left, h, List.take_left]

theorem between_append_right (p d : Bytes) (a b : Nat) :
    between (p.length + a) b (p ++ d) = between a (b - p.length) d := by
  rw [between, between, ← List.drop_drop, List.take_append]
  rcases Nat.le_total p.length b with h | h
  · rw [List.take_of_length_le h, List.drop_left]
  · rw [Nat.sub_eq_zero_of_le h, List.take_zero, List.append_nil,
      List.drop_eq_nil_of_le (Nat.le_trans (List.length_take_le _ _) h), List.drop_nil]

end Bytes

variable {kind : PacketKind} {s : Bytes} {w o o' : Nat}

/-- The first of some offsets that lies between `o` and `o'`, counted from `o`. -/
def firstIn? (starts : List Nat) (o o' : Nat) : Option Nat :=
  (starts.find? fun start => o ≤ start ∧ start < o').map (· - o)

theorem firstIn?_lt {starts : List Nat} {start : Nat} (h : start ∈ firstIn? starts o o') :
    start < o' - o := by
  obtain ⟨a, ha, rfl⟩ := Option.map_eq_some_iff.mp h
  have := List.find?_some ha
  simp only [decide_eq_true_eq] at this
  omega

theorem firstIn?_packetStarts :
    firstIn? (kind.packetStarts s) o o' = firstFrom (kind.packetStarts (s.take o')) o := by
  rw [firstIn?, firstFrom, PacketKind.packetStarts_take, List.find?_filter]
  congr 2
  funext start
  simp [and_comm]

/-- The offset of the first packet of `s` that starts at `w` or after, or the end of `s`. -/
def resync (kind : PacketKind) (s : Bytes) (w : Nat) : Nat :=
  ((kind.packetStarts s).find? (w ≤ ·)).getD s.length

theorem resync_eq_some (h : resync kind s w < s.length) :
    ∃ earlier later, kind.packetStarts s = earlier ++ resync kind s w :: later ∧
      w ≤ resync kind s w ∧ ∀ start ∈ earlier, start < w := by
  rw [resync] at h ⊢
  cases hf : (kind.packetStarts s).find? (w ≤ ·) with
  | none => simp [hf] at h
  | some start =>
    obtain ⟨hw, earlier, later, hs, he⟩ := List.find?_eq_some_iff_append.mp hf
    exact ⟨earlier, later, hs, by simpa using hw, by simpa using he⟩

theorem resync_mem (h : resync kind s w < s.length) : resync kind s w ∈ kind.packetStarts s := by
  obtain ⟨earlier, later, hs, -⟩ := resync_eq_some h
  exact hs ▸ List.mem_append_right _ List.mem_cons_self

theorem le_resync (h : w ≤ s.length) : w ≤ resync kind s w := by
  rcases Nat.lt_or_ge (resync kind s w) s.length with hr | hr
  · obtain ⟨-, -, -, hw, -⟩ := resync_eq_some hr
    exact hw
  · exact Nat.le_trans h hr

theorem resync_zero (kind : PacketKind) (s : Bytes) : resync kind s 0 = 0 := by
  by_cases hs : s = []
  · rw [hs, resync, PacketKind.packetStarts_nil]
    rfl
  · obtain ⟨starts, h⟩ := kind.packetStarts_of_ne_nil hs
    rw [resync, h, List.find?_cons_of_pos (by simp)]
    rfl

/-- Where a receiver finds the first packet, past a packet at the start. -/
theorem resync_of_some {t : Nat} (h : kind.packetLength? s = some t) (hw : 0 < w) :
    resync kind s w = t + resync kind (s.drop t) (w - t) := by
  have hle := PacketKind.packetLength?_le h
  have hf : ((fun start : Nat => decide (w ≤ start)) ∘ (· + t)) = (w - t ≤ ·) := by
    funext start
    simp only [Function.comp_apply, decide_eq_decide]
    omega
  rw [resync, PacketKind.packetStarts_of_some h, List.find?_cons_of_neg (by simp; omega),
    List.find?_map, hf, resync]
  cases (kind.packetStarts (s.drop t)).find? (w - t ≤ ·) with
  | none =>
    show s.length = t + (s.drop t).length
    rw [List.length_drop, Nat.add_sub_cancel' hle]
  | some start => exact Nat.add_comm start t

/-- No packet between `w` and the first one found is missed. -/
theorem resync_le {start : Nat} (hm : start ∈ kind.packetStarts s) (hw : w ≤ start) :
    resync kind s w ≤ start := by
  refine Nat.le_of_not_lt fun hlt => ?_
  have hl := PacketKind.lt_length_of_mem_packetStarts hm
  have hr : resync kind s w < s.length := by
    rw [resync]
    cases hf : (kind.packetStarts s).find? (w ≤ ·) with
    | none => exact absurd hw (by simpa using List.find?_eq_none.mp hf start hm)
    | some first => exact PacketKind.lt_length_of_mem_packetStarts (List.mem_of_find?_eq_some hf)
  obtain ⟨earlier, later, hs, -, he⟩ := resync_eq_some hr
  have hp : (kind.packetStarts s).Pairwise (· < ·) := PacketKind.packetStarts_pairwise s
  rw [hs] at hm hp
  rcases List.mem_append.mp hm with hm | hm
  · exact Nat.not_le.mpr (he start hm) hw
  rcases List.mem_cons.mp hm with hm | hm
  · omega
  · have := (List.pairwise_cons.mp (List.pairwise_append.mp hp).2.1).1 start hm
    omega

/-- In a zone before the first packet is found, either it is found or no packet starts. -/
theorem firstIn?_of_le_resync (hw : w ≤ o) (ho : o ≤ resync kind s w) (ho' : o' ≤ s.length) :
    firstIn? (kind.packetStarts s) o o' =
      if resync kind s w < o' then some (resync kind s w - o) else none := by
  split
  · rename_i h
    obtain ⟨earlier, later, hs, -, he⟩ := resync_eq_some (Nat.lt_of_lt_of_le h ho')
    have : (kind.packetStarts s).find? (fun start => o ≤ start ∧ start < o') =
        some (resync kind s w) := by
      refine List.find?_eq_some_iff_append.mpr ⟨by simp [ho, h], earlier, later, hs, fun a ha => ?_⟩
      have := he a ha
      simp only [Bool.not_eq_true', decide_eq_false_iff_not]
      omega
    rw [firstIn?, this]
    rfl
  · rename_i h
    rw [firstIn?, List.find?_eq_none.mpr]
    · rfl
    · intro start hm
      have := resync_le (w := w) hm
      simp only [decide_eq_true_eq]
      omega

/-- After the first packet is found, the packets of the stream start where those of the stretch
from there on start. -/
theorem firstIn?_of_resync_le (ho : resync kind s w ≤ o) (hoo : o < o') (ho' : o' ≤ s.length) :
    firstIn? (kind.packetStarts s) o o' = firstFrom
      (kind.packetStarts (Bytes.between (resync kind s w) o' s)) (o - resync kind s w) := by
  have hm := resync_mem (show resync kind s w < s.length by omega)
  have hm' : resync kind s w ∈ kind.packetStarts (s.take o') := by
    rw [PacketKind.packetStarts_take, List.mem_filter]
    exact ⟨hm, decide_eq_true (by omega)⟩
  rw [firstIn?_packetStarts, Bytes.between, PacketKind.packetStarts_drop hm', firstFrom, firstFrom,
    List.find?_map, List.find?_filter, Option.map_map]
  congr 1
  · funext start
    simp only [Function.comp_apply]
    omega
  · congr 1
    funext start
    simp only [Function.comp_apply, decide_eq_true_eq, decide_eq_decide]
    omega

/-- A receiver that began at `w` and takes the next zone has the packets and the packet in flight
of the stretch from the first packet that it found. -/
theorem advance_between (kind : PacketKind) (s : Bytes) (hw : w ≤ o) (hoo : o < o')
    (ho' : o' ≤ s.length) :
    ∃ packets,
      (extract kind (Bytes.between (resync kind s w) o' s)).1 =
        (extract kind (Bytes.between (resync kind s w) o s)).1 ++ packets ∧
      advance kind (extract kind (Bytes.between (resync kind s w) o s)).2 (Bytes.between o o' s)
          (firstIn? (kind.packetStarts s) o o') =
        (packets.map fun bytes => { bytes, complete := true },
          (extract kind (Bytes.between (resync kind s w) o' s)).2) := by
  rcases Nat.le_total (resync kind s w) o with h | h
  · have hl : (Bytes.between (resync kind s w) o s).length = o - resync kind s w := by
      rw [Bytes.length_between]
      omega
    rw [firstIn?_of_resync_le h hoo ho', ← Bytes.between_append h (Nat.le_of_lt hoo), ← hl]
    exact advance_extract kind _ _
  · rw [firstIn?_of_le_resync hw h ho', Bytes.between_of_le h, extract_of_none PacketKind.packetLength?_nil]
    split
    · refine ⟨_, rfl, ?_⟩
      show ([] ++ _, _) = _
      rw [Bytes.drop_between, Nat.add_sub_cancel' h]
      rfl
    · rw [Bytes.between_of_le (by omega), extract_of_none PacketKind.packetLength?_nil]
      exact ⟨[], rfl, rfl⟩

end SpaceLink
