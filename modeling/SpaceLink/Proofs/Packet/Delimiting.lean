import SpaceLink.Packet.Kind

/-!
# Packets at the start of a byte string

What the first bytes of a packet say does not change when more bytes follow
(`PacketKind.declaredLength?_append`, `PacketKind.headerLength_append`). So a byte string falls into
packets in one way only: `PacketKind.packetLength?` is the length of the packet that is complete at
its start, `PacketKind.packet_induction` goes from packet to packet, and `PacketKind.packetStarts`
are the offsets at which packets start.
-/

namespace SpaceLink

namespace EncapsulationHeader

theorem format_cases (first : UInt8) :
    bits first.toNat 0 2 = 0 ∨ bits first.toNat 0 2 = 1 ∨ bits first.toNat 0 2 = 2 ∨
      bits first.toNat 0 2 = 3 := by
  have := bits_lt first.toNat 0 2
  simp only [Nat.reduceShiftLeft] at this
  omega

theorem decode_isSome_iff {first : UInt8} {rest : Bytes} :
    (decode (first :: rest)).isSome ↔ lengthFromFirst first ≤ rest.length + 1 := by
  rcases format_cases first with h | h | h | h <;>
    simp only [decode, h, lengthFromFirst, formatLength, Nat.reduceShiftLeft]
  · simp
  · rcases rest with _ | ⟨_, rest⟩ <;> simp
  · rcases rest with _ | ⟨_, _ | ⟨_, _ | ⟨_, rest⟩⟩⟩ <;> simp
  · rcases rest with
      _ | ⟨_, _ | ⟨_, _ | ⟨_, _ | ⟨_, _ | ⟨_, _ | ⟨_, _ | ⟨_, rest⟩⟩⟩⟩⟩⟩⟩ <;> simp

theorem decode_append {d e : Bytes} (h : (decode d).isSome) : decode (d ++ e) = decode d := by
  cases d with
  | nil => simp at h
  | cons first rest =>
    rw [decode_isSome_iff] at h
    rcases format_cases first with hf | hf | hf | hf <;>
      simp only [lengthFromFirst, formatLength, hf, Nat.reduceShiftLeft] at h <;>
      simp only [decode, List.cons_append, hf]
    · rcases rest with _ | ⟨_, rest⟩ <;> simp at h ⊢
    · rcases rest with _ | ⟨_, _ | ⟨_, _ | ⟨_, rest⟩⟩⟩ <;> simp at h ⊢
    · rcases rest with
        _ | ⟨_, _ | ⟨_, _ | ⟨_, _ | ⟨_, _ | ⟨_, _ | ⟨_, _ | ⟨_, rest⟩⟩⟩⟩⟩⟩⟩ <;> simp at h ⊢

/-- A header of one byte is a packet of one byte. -/
theorem packetLength_of_lengthFromFirst {first : UInt8} {rest : Bytes}
    (h : lengthFromFirst first = 1) :
    (decode (first :: rest)).map (·.packetLength) = some 1 := by
  rcases format_cases first with hf | hf | hf | hf <;>
    simp [lengthFromFirst, formatLength, hf, decode, ofFirst] at h ⊢

end EncapsulationHeader

namespace SpacePacketHeader

theorem decode_isSome_iff {d : Bytes} : (decode d).isSome ↔ length ≤ d.length := by
  rcases d with _ | ⟨_, _ | ⟨_, _ | ⟨_, _ | ⟨_, _ | ⟨_, _ | ⟨_, rest⟩⟩⟩⟩⟩⟩ <;> simp [decode, length]

theorem decode_append {d e : Bytes} (h : (decode d).isSome) : decode (d ++ e) = decode d := by
  rcases d with _ | ⟨_, _ | ⟨_, _ | ⟨_, _ | ⟨_, _ | ⟨_, _ | ⟨_, rest⟩⟩⟩⟩⟩⟩ <;> simp [decode] at h ⊢

end SpacePacketHeader

namespace PacketKind

variable {kind : PacketKind} {d e : Bytes} {t : Nat}

theorem declaredLength?_isSome_iff :
    (kind.declaredLength? d).isSome ↔ kind.headerLength d ≤ d.length := by
  cases kind with
  | space => simpa [declaredLength?, headerLength] using SpacePacketHeader.decode_isSome_iff
  | encapsulation =>
    cases d with
    | nil => simp [declaredLength?, headerLength]
    | cons first rest =>
      simpa [declaredLength?, headerLength] using EncapsulationHeader.decode_isSome_iff

theorem declaredLength?_eq_none_iff :
    kind.declaredLength? d = none ↔ d.length < kind.headerLength d := by
  rw [← Option.not_isSome_iff_eq_none, declaredLength?_isSome_iff, Nat.not_le]

theorem headerLength_le_length (h : kind.declaredLength? d = some t) :
    kind.headerLength d ≤ d.length :=
  declaredLength?_isSome_iff.mp (h ▸ rfl)

theorem ne_nil_of_declaredLength? (h : kind.declaredLength? d = some t) : d ≠ [] := by
  rintro rfl
  exact absurd (headerLength_le_length h) (Nat.not_le.mpr (kind.headerLength_pos []))

/-- A complete header is read the same whatever follows. -/
theorem declaredLength?_append (h : kind.declaredLength? d = some t) :
    kind.declaredLength? (d ++ e) = some t := by
  have hs := congrArg Option.isSome h
  cases kind with
  | space =>
    rw [← h, declaredLength?, declaredLength?, SpacePacketHeader.decode_append]
    simpa [declaredLength?] using hs
  | encapsulation =>
    rw [← h, declaredLength?, declaredLength?, EncapsulationHeader.decode_append]
    simpa [declaredLength?] using hs

theorem headerLength_append (h : d ≠ []) : kind.headerLength (d ++ e) = kind.headerLength d := by
  cases kind with
  | space => rfl
  | encapsulation =>
    cases d with
    | nil => contradiction
    | cons first rest => rfl

theorem headerLength_le_append : kind.headerLength d ≤ kind.headerLength (d ++ e) := by
  cases d with
  | nil =>
    cases kind with
    | space => exact Nat.le_refl _
    | encapsulation => exact headerLength_pos .encapsulation e
  | cons first rest => exact Nat.le_of_eq (headerLength_append (List.cons_ne_nil _ _)).symm

theorem declaredLength?_of_append (h : kind.declaredLength? (d ++ e) = some t)
    (hd : kind.headerLength d ≤ d.length) : kind.declaredLength? d = some t := by
  obtain ⟨t', ht'⟩ := Option.isSome_iff_exists.mp (declaredLength?_isSome_iff.mpr hd)
  rw [ht', ← declaredLength?_append ht', h]

/-- A packet with a header of one byte is that byte. -/
theorem declaredLength?_of_headerLength (hd : d ≠ []) (h : kind.headerLength d = 1) :
    kind.declaredLength? d = some 1 := by
  cases kind with
  | space => simp [headerLength, SpacePacketHeader.length] at h
  | encapsulation =>
    cases d with
    | nil => contradiction
    | cons first rest => exact EncapsulationHeader.packetLength_of_lengthFromFirst h

/-! ## The packet at the start -/

/-- The length of the packet at the start of `d`, if all of it is there and it is not shorter than
its header. -/
def packetLength? (kind : PacketKind) (d : Bytes) : Option Nat :=
  (kind.declaredLength? d).filter fun t => kind.headerLength d ≤ t ∧ t ≤ d.length

theorem packetLength?_eq_some_iff : kind.packetLength? d = some t ↔
    kind.declaredLength? d = some t ∧ kind.headerLength d ≤ t ∧ t ≤ d.length := by
  simp [packetLength?, Option.filter_eq_some_iff]

theorem packetLength?_of_declaredLength? (h : kind.declaredLength? d = some t) :
    kind.packetLength? d = if kind.headerLength d ≤ t ∧ t ≤ d.length then some t else none := by
  rw [packetLength?, h, Option.filter_some]
  simp

/-- Bytes that fill space are complete packets. -/
theorem headerLength_ne_one (hd : d ≠ []) (h : kind.packetLength? d = none) :
    kind.headerLength d ≠ 1 := fun h1 => by
  have := List.length_pos_iff.mpr hd
  rw [packetLength?_of_declaredLength? (declaredLength?_of_headerLength hd h1), if_pos (by omega)] at h
  cases h

theorem packetLength?_pos (h : kind.packetLength? d = some t) : 0 < t :=
  Nat.lt_of_lt_of_le (kind.headerLength_pos d) (packetLength?_eq_some_iff.mp h).2.1

theorem packetLength?_le (h : kind.packetLength? d = some t) : t ≤ d.length :=
  (packetLength?_eq_some_iff.mp h).2.2

theorem ne_nil_of_packetLength? (h : kind.packetLength? d = some t) : d ≠ [] :=
  ne_nil_of_declaredLength? (packetLength?_eq_some_iff.mp h).1

@[simp] theorem packetLength?_nil : kind.packetLength? [] = none := by
  rw [Option.eq_none_iff_forall_ne_some]
  exact fun _ h => ne_nil_of_packetLength? h rfl

/-- A complete packet is the same whatever follows. -/
theorem packetLength?_append (h : kind.packetLength? d = some t) :
    kind.packetLength? (d ++ e) = some t := by
  have hd := ne_nil_of_packetLength? h
  rw [packetLength?_eq_some_iff] at h ⊢
  obtain ⟨h, hh, hl⟩ := h
  refine ⟨declaredLength?_append h, ?_, ?_⟩
  · rwa [headerLength_append hd]
  · rw [List.length_append]
    omega

/-- A packet that ends within a prefix is complete there. -/
theorem packetLength?_of_append (h : kind.packetLength? (d ++ e) = some t) (ht : t ≤ d.length) :
    kind.packetLength? d = some t := by
  obtain ⟨h, hh, -⟩ := packetLength?_eq_some_iff.mp h
  have hle : kind.headerLength d ≤ kind.headerLength (d ++ e) := headerLength_le_append
  exact packetLength?_eq_some_iff.mpr
    ⟨declaredLength?_of_append h (by omega), Nat.le_trans hle hh, ht⟩

/-- A prefix begins with the same complete packet, if that is not longer. -/
theorem packetLength?_take (d : Bytes) (n : Nat) :
    kind.packetLength? (d.take n) = (kind.packetLength? d).filter (· ≤ n) := by
  ext t
  simp only [Option.filter_eq_some_iff, decide_eq_true_eq]
  constructor
  · intro h
    have := packetLength?_le h
    rw [List.length_take] at this
    have := packetLength?_append (e := d.drop n) h
    rw [List.take_append_drop] at this
    exact ⟨this, by omega⟩
  · rintro ⟨h, ht⟩
    have := packetLength?_le h
    rw [← List.take_append_drop n d] at h
    exact packetLength?_of_append h (by rw [List.length_take]; omega)

theorem packetLength?_take_of_some {n : Nat} (h : kind.packetLength? d = some t) :
    kind.packetLength? (d.take n) = if t ≤ n then some t else none := by
  rw [packetLength?_take, h, Option.filter_some]
  simp

/-- To show something of all byte strings, show it of those that do not begin with a complete
packet, and of those that do if it holds of the rest. -/
theorem packet_induction (kind : PacketKind) {motive : Bytes → Prop}
    (rest : ∀ d, kind.packetLength? d = none → motive d)
    (packet : ∀ d t, kind.packetLength? d = some t → motive (d.drop t) → motive d)
    (d : Bytes) : motive d := by
  induction hn : d.length using Nat.strongRecOn generalizing d with
  | ind n ih =>
    cases h : kind.packetLength? d with
    | none => exact rest d h
    | some t =>
      have := packetLength?_pos h
      have := packetLength?_le h
      exact packet d t h (ih _ (by rw [List.length_drop]; omega) _ rfl)

/-! ## Where packets start -/

/-- The offsets at which packets start: the beginning, and the end of each complete packet that
starts at such an offset, unless it is the end of the bytes. -/
def packetStarts (kind : PacketKind) (d : Bytes) : List Nat :=
  if d = [] then []
  else 0 :: match _h : kind.packetLength? d with
    | some t => (packetStarts kind (d.drop t)).map (· + t)
    | none => []
termination_by d.length
decreasing_by
  have := packetLength?_pos ‹_›
  have := packetLength?_le ‹_›
  rw [List.length_drop]
  omega

@[simp] theorem packetStarts_nil : kind.packetStarts [] = [] := by
  rw [packetStarts, if_pos rfl]

theorem packetStarts_of_some (h : kind.packetLength? d = some t) :
    kind.packetStarts d = 0 :: (kind.packetStarts (d.drop t)).map (· + t) := by
  rw [packetStarts, if_neg (ne_nil_of_packetLength? h)]
  split
  · rename_i t' ht'
    rw [h] at ht'
    cases ht'
    rfl
  · rename_i h'
    rw [h] at h'
    cases h'

theorem packetStarts_of_none (hd : d ≠ []) (h : kind.packetLength? d = none) :
    kind.packetStarts d = [0] := by
  rw [packetStarts, if_neg hd]
  split
  · rename_i h'
    rw [h] at h'
    cases h'
  · rfl

theorem packetStarts_of_ne_nil (kind : PacketKind) (hd : d ≠ []) : ∃ starts, kind.packetStarts d = 0 :: starts := by
  cases h : kind.packetLength? d with
  | none => exact ⟨_, packetStarts_of_none hd h⟩
  | some t => exact ⟨_, packetStarts_of_some h⟩

theorem lt_length_of_mem_packetStarts {s : Nat} (hs : s ∈ kind.packetStarts d) : s < d.length := by
  induction d using packet_induction kind generalizing s with
  | rest d h =>
    by_cases hd : d = []
    · simp [hd] at hs
    · rw [packetStarts_of_none hd h] at hs
      cases List.mem_singleton.mp hs
      exact List.length_pos_iff.mpr hd
  | packet d t h ih =>
    rw [packetStarts_of_some h] at hs
    have := packetLength?_pos h
    have := packetLength?_le h
    rcases List.mem_cons.mp hs with rfl | hs
    · omega
    · obtain ⟨s, hs', rfl⟩ := List.mem_map.mp hs
      have := ih hs'
      rw [List.length_drop] at this
      omega

theorem packetStarts_pairwise (d : Bytes) : (kind.packetStarts d).Pairwise (· < ·) := by
  induction d using packet_induction kind with
  | rest d h =>
    by_cases hd : d = []
    · simp [hd]
    · rw [packetStarts_of_none hd h]
      exact List.pairwise_singleton _ _
  | packet d t h ih =>
    rw [packetStarts_of_some h]
    have := packetLength?_pos h
    refine .cons (fun a ha => ?_) (ih.map _ fun a b h => Nat.add_lt_add_right h t)
    obtain ⟨a, -, rfl⟩ := List.mem_map.mp ha
    omega

/-- Up to an offset, the packets of a byte string start where those of its prefix start. -/
theorem packetStarts_take (d : Bytes) (n : Nat) :
    kind.packetStarts (d.take n) = (kind.packetStarts d).filter (· < n) := by
  induction d using packet_induction kind generalizing n with
  | rest d h =>
    cases n with
    | zero => simp
    | succ n =>
      cases d with
      | nil => simp
      | cons b d =>
        have h' : kind.packetLength? ((b :: d).take (n + 1)) = none := by
          rw [packetLength?_take, h, Option.filter_none]
        rw [packetStarts_of_none (List.cons_ne_nil _ _) h, packetStarts_of_none (by simp) h']
        simp
  | packet d t h ih =>
    rw [packetStarts_of_some h]
    cases n with
    | zero => simp
    | succ n =>
      have h' := packetLength?_take_of_some (n := n + 1) h
      rw [List.filter_cons_of_pos (by simp), List.filter_map]
      split at h'
      · rw [packetStarts_of_some h', List.drop_take, ih]
        congr 2
        refine List.filter_congr fun s _ => ?_
        simp only [Function.comp_apply, decide_eq_decide]
        omega
      · rw [packetStarts_of_none (by simpa using ne_nil_of_packetLength? h) h']
        have : (kind.packetStarts (d.drop t)).filter ((· < n + 1) ∘ (· + t)) = [] := by
          rw [List.filter_eq_nil_iff]
          intro s _
          simp only [Function.comp_apply, decide_eq_true_eq]
          omega
        rw [this, List.map_nil]

/-- From a start on, the packets of a byte string start where those of its suffix start. -/
theorem packetStarts_drop {s : Nat} (hs : s ∈ kind.packetStarts d) :
    kind.packetStarts (d.drop s) = ((kind.packetStarts d).filter (s ≤ ·)).map (· - s) := by
  induction d using packet_induction kind generalizing s with
  | rest d h =>
    cases d with
    | nil => simp at hs
    | cons b d =>
      rw [packetStarts_of_none (List.cons_ne_nil _ _) h] at hs ⊢
      cases List.mem_singleton.mp hs
      rw [List.drop_zero, packetStarts_of_none (List.cons_ne_nil _ _) h]
      rfl
  | packet d t h ih =>
    have hp := packetStarts_of_some h
    rw [hp] at hs
    rcases List.mem_cons.mp hs with rfl | hs
    · rw [List.filter_eq_self.mpr fun s _ => decide_eq_true (Nat.zero_le s)]
      simp
    · obtain ⟨s, hs', rfl⟩ := List.mem_map.mp hs
      have hpos := packetLength?_pos h
      rw [hp, Nat.add_comm s t, ← List.drop_drop, ih hs', List.filter_cons_of_neg (by simp; omega),
        List.filter_map, List.map_map]
      have : (kind.packetStarts (d.drop t)).filter ((t + s ≤ ·) ∘ (· + t)) =
          (kind.packetStarts (d.drop t)).filter (s ≤ ·) :=
        List.filter_congr fun a _ => by simp only [Function.comp_apply, decide_eq_decide]; omega
      rw [this]
      refine List.map_congr_left fun a _ => ?_
      simp only [Function.comp_apply]
      omega

end PacketKind

end SpaceLink
