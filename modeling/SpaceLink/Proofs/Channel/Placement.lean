import SpaceLink.Proofs.Channel.Stream

/-!
# Where packets are taken from

Whatever zones and offsets come in, every packet that is handed out is a stretch of the bytes that
have come in. `Placement` says where in `d` some packets lie: one after the other between two
offsets. `advance_placement` is about one zone; what is in flight afterwards is the end of the
bytes, behind all packets.
-/

namespace SpaceLink

variable {kind : PacketKind} {d e : Bytes} {lo mid hi t : Nat}

/-- The packet has a complete header. It has the length that the header declares, if it is handed
out as complete, and else less. -/
def Extracted.Sound (kind : PacketKind) (u : Extracted) : Prop :=
  ∃ t, kind.declaredLength? u.bytes = some t ∧ kind.headerLength u.bytes ≤ u.bytes.length ∧
    if u.complete then t = u.bytes.length else u.bytes.length < t

/-- A packet and the offset that it was found at. -/
structure Placed where
  start : Nat
  packet : Extracted

namespace Placed

def stop (u : Placed) : Nat := u.start + u.packet.bytes.length

def shift (n : Nat) (u : Placed) : Placed := { u with start := n + u.start }

end Placed

/-- The packets lie in `d` one after the other, all of them between `lo` and `hi`. -/
structure Placement (kind : PacketKind) (d : Bytes) (lo hi : Nat) (us : List Placed) : Prop where
  disjoint : us.Pairwise fun u v => u.stop ≤ v.start
  within : ∀ u ∈ us, lo ≤ u.start ∧ u.stop ≤ hi
  bytes : ∀ u ∈ us, Bytes.between u.start u.stop d = u.packet.bytes
  sound : ∀ u ∈ us, u.packet.Sound kind

namespace Placement

variable {us vs : List Placed}

theorem nil : Placement kind d lo hi [] := ⟨.nil, nofun, nofun, nofun⟩

/-- A packet that the bytes begin with. -/
theorem singleton {u : Extracted} (hb : u.bytes <+: d) (hhi : u.bytes.length ≤ hi)
    (hs : u.Sound kind) : Placement kind d 0 hi [{ start := 0, packet := u }] := by
  have hstop : Placed.stop { start := 0, packet := u } = u.bytes.length := Nat.zero_add _
  refine ⟨List.pairwise_singleton _ _, fun v hv => ?_, fun v hv => ?_, fun v hv => ?_⟩
  · rw [List.mem_singleton.mp hv, hstop]
    exact ⟨Nat.le_refl 0, hhi⟩
  · rw [List.mem_singleton.mp hv, hstop]
    exact (List.prefix_iff_eq_take.mp hb).symm
  · rw [List.mem_singleton.mp hv]
    exact hs

theorem append (h : Placement kind d lo mid us) (h' : Placement kind d mid hi vs) (hlo : lo ≤ mid)
    (hhi : mid ≤ hi) : Placement kind d lo hi (us ++ vs) where
  disjoint := List.pairwise_append.mpr ⟨h.disjoint, h'.disjoint, fun u hu v hv =>
    Nat.le_trans (h.within u hu).2 (h'.within v hv).1⟩
  within u hu := by
    rcases List.mem_append.mp hu with hu | hu
    · exact ⟨(h.within u hu).1, Nat.le_trans (h.within u hu).2 hhi⟩
    · exact ⟨Nat.le_trans hlo (h'.within u hu).1, (h'.within u hu).2⟩
  bytes u hu := (List.mem_append.mp hu).elim (h.bytes u) (h'.bytes u)
  sound u hu := (List.mem_append.mp hu).elim (h.sound u) (h'.sound u)

/-- More bytes at the end change nothing. -/
theorem extend (h : Placement kind d lo hi us) (hhi : hi ≤ d.length) (e : Bytes) :
    Placement kind (d ++ e) lo hi us where
  disjoint := h.disjoint
  within := h.within
  bytes u hu := by
    rw [← h.bytes u hu, Bytes.between, Bytes.between,
      List.take_append_of_le_length (Nat.le_trans (h.within u hu).2 hhi)]
  sound := h.sound

/-- More bytes at the start shift all offsets. -/
theorem shift {n : Nat} (h : Placement kind (d.drop n) lo hi us) :
    Placement kind d (n + lo) (n + hi) (us.map (·.shift n)) where
  disjoint := by
    refine List.pairwise_map.mpr (h.disjoint.imp fun {u v} huv => ?_)
    have : n + (u.start + u.packet.bytes.length) ≤ n + v.start := Nat.add_le_add_left huv n
    rw [← Nat.add_assoc] at this
    exact this
  within v hv := by
    obtain ⟨u, hu, rfl⟩ := List.mem_map.mp hv
    obtain ⟨hlo, hhi⟩ := h.within u hu
    simp only [Placed.stop, Placed.shift] at hhi ⊢
    omega
  bytes v hv := by
    obtain ⟨u, hu, rfl⟩ := List.mem_map.mp hv
    have := h.bytes u hu
    rw [Bytes.between, List.take_drop, List.drop_drop] at this
    simp only [Placed.stop, Placed.shift] at this ⊢
    rw [Bytes.between, Nat.add_assoc]
    exact this
  sound v hv := by
    obtain ⟨u, hu, rfl⟩ := List.mem_map.mp hv
    exact h.sound u hu

end Placement

theorem map_packet_shift (n : Nat) (us : List Placed) :
    (us.map (·.shift n)).map (·.packet) = us.map (·.packet) := by
  rw [List.map_map]
  rfl

/-! ## One zone -/

theorem Extracted.sound_of_packetLength? (h : kind.packetLength? d = some t) :
    Extracted.Sound kind { bytes := d.take t, complete := true } := by
  have ht := PacketKind.packetLength?_le h
  have hp : kind.packetLength? (d.take t) = some t := by
    rw [PacketKind.packetLength?_take_of_some h, if_pos (Nat.le_refl t)]
  obtain ⟨hd, hh, hl⟩ := PacketKind.packetLength?_eq_some_iff.mp hp
  refine ⟨t, hd, Nat.le_trans hh hl, ?_⟩
  rw [if_pos rfl, List.length_take, Nat.min_eq_left ht]

/-- What is handed out of a packet in flight is sound. -/
theorem PartialPacket.Suspended.sound {p : PartialPacket} (h : p.Suspended kind) {u : Extracted}
    (hu : p.close? = some u) : u.Sound kind ∧ u.bytes = p.bytes := by
  obtain ⟨t, ht, rfl⟩ := Option.map_eq_some_iff.mp hu
  have hd := h.total?_eq ▸ ht
  exact ⟨⟨t, hd, PacketKind.headerLength_le_length hd, h.length_lt ht⟩, rfl⟩

theorem placement_take (h : kind.packetLength? d = some t) (hhi : t ≤ hi) :
    Placement kind d 0 hi [{ start := 0, packet := { bytes := d.take t, complete := true } }] :=
  .singleton (List.take_prefix t d) (Nat.le_trans (List.length_take_le t d) hhi)
    (Extracted.sound_of_packetLength? h)

theorem extract_placement (kind : PacketKind) (d : Bytes) :
    ∃ us m, us.map (·.packet) =
        (extract kind d).1.map (fun bytes => { bytes, complete := true }) ∧
      Placement kind d 0 m us ∧ m ≤ d.length ∧ ∀ p ∈ (extract kind d).2, p.bytes = d.drop m := by
  induction d using PacketKind.packet_induction kind with
  | rest d hd =>
    rw [extract_of_none hd]
    exact ⟨[], 0, rfl, .nil, Nat.zero_le _, fun p hp => (held?_eq_some hp).1⟩
  | packet d t hd ih =>
    obtain ⟨us, m, hus, hplace, hm, hrest⟩ := ih
    have ht := PacketKind.packetLength?_le hd
    have hlater := hplace.shift
    rw [List.length_drop] at hm
    rw [extract_of_some hd, yield]
    split
    · refine ⟨us.map (·.shift t), t + m, ?_, ?_, by omega, fun p hp => ?_⟩
      · rw [map_packet_shift, hus]
        rfl
      · exact Placement.nil.append hlater (Nat.zero_le _) (by omega)
      · rw [hrest p hp, List.drop_drop]
    · refine ⟨_ :: us.map (·.shift t), t + m, ?_, (placement_take hd (Nat.le_refl t)).append hlater
        (Nat.zero_le _) (by omega), by omega, fun p hp => ?_⟩
      · rw [List.map_cons, map_packet_shift, hus]
        rfl
      · rw [hrest p hp, List.drop_drop]

/-- A packet that is settled lies at the start of its bytes, and one that stays in flight is all of
them. -/
theorem settle_placement (kind : PacketKind) (d : Bytes) (interrupted : Bool) :
    ∃ us, us.map (·.packet) = (settle kind d interrupted).1.toList ∧
      Placement kind d 0 d.length us ∧
      ∀ p ∈ (settle kind d interrupted).2, us = [] ∧ p.Suspended kind ∧ p.bytes = d := by
  cases ht : kind.packetLength? d with
  | some t =>
    rw [settle_of_some ht]
    exact ⟨_, rfl, placement_take ht (PacketKind.packetLength?_le ht),
      fun p hp => absurd hp (Option.not_mem_none p)⟩
  | none =>
    cases interrupted with
    | false =>
      rw [settle_of_none ht]
      exact ⟨[], rfl, .nil, fun p hp => ⟨rfl, .of_held? ht hp, (held?_eq_some hp).1⟩⟩
    | true =>
      rw [settle, ht]
      dsimp only
      rw [if_pos rfl]
      cases hu : (held? kind d).bind (·.close?) with
      | none => exact ⟨[], rfl, .nil, fun p hp => absurd hp (Option.not_mem_none p)⟩
      | some u =>
        obtain ⟨p, hp, hu⟩ := Option.bind_eq_some_iff.mp hu
        obtain ⟨hs, hb⟩ := (PartialPacket.Suspended.of_held? ht hp).sound hu
        rw [(held?_eq_some hp).1] at hb
        exact ⟨_, rfl, .singleton (hb ▸ List.prefix_refl d) (Nat.le_of_eq (hb ▸ rfl)) hs,
          fun p hp => absurd hp (Option.not_mem_none p)⟩

def bytesOf (inFlight? : Option PartialPacket) : Bytes := (inFlight?.map (·.bytes)).getD []

theorem bytesOf_of_mem {inFlight? : Option PartialPacket} {p : PartialPacket} (h : p ∈ inFlight?) :
    bytesOf inFlight? = p.bytes := by
  cases h
  rfl

/-- What becomes of the packet in flight, if there is one. -/
private def resumed (kind : PacketKind) (inFlight? : Option PartialPacket) (zone : Bytes)
    (start? : Option Nat) : Option Extracted × Option PartialPacket :=
  match inFlight? with
  | some p => p.resume kind zone start?
  | none => (none, none)

section

variable {inFlight? : Option PartialPacket} (hs : ∀ p ∈ inFlight?, p.Suspended kind)
include hs

private theorem resumed_placement (zone : Bytes) (start? : Option Nat) :
    ∃ us, us.map (·.packet) = (resumed kind inFlight? zone start?).1.toList ∧
      Placement kind (bytesOf inFlight? ++ before zone start?) 0
        (bytesOf inFlight? ++ before zone start?).length us ∧
      ∀ p ∈ (resumed kind inFlight? zone start?).2, us = [] ∧ p.Suspended kind ∧
        p.bytes = bytesOf inFlight? ++ before zone start? := by
  cases inFlight? with
  | none => exact ⟨[], rfl, .nil, nofun⟩
  | some p =>
    rw [resumed, PartialPacket.resume_eq (hs p rfl)]
    exact settle_placement kind _ _

/-- The packets that a zone ends lie in the bytes in flight and those of the zone together, and
what is in flight afterwards is the end of these. -/
theorem advance_placement (zone : Bytes) (start? : Option Nat) :
    ∃ us m, us.map (·.packet) = (advance kind inFlight? zone start?).1 ∧
      Placement kind (bytesOf inFlight? ++ zone) 0 m us ∧ m ≤ (bytesOf inFlight? ++ zone).length ∧
      ∀ p ∈ (advance kind inFlight? zone start?).2,
        p.Suspended kind ∧ p.bytes = (bytesOf inFlight? ++ zone).drop m := by
  obtain ⟨us, hus, hplace, hrest⟩ := resumed_placement hs zone start?
  cases start? with
  | none =>
    cases hw : (resumed kind inFlight? zone none).2 with
    | none =>
      refine ⟨us, _, hus, hplace, Nat.le_refl _, fun p hp => ?_⟩
      rw [show (advance kind inFlight? zone none).2 = none from hw] at hp
      cases hp
    | some p =>
      obtain ⟨rfl, hp, hb⟩ := hrest p hw
      refine ⟨[], 0, hus, .nil, Nat.zero_le _, fun q hq => ?_⟩
      rw [show (advance kind inFlight? zone none).2 = some p from hw] at hq
      cases hq
      exact ⟨hp, hb⟩
  | some start =>
    -- the packet in flight ends before `start`, and the others lie behind
    obtain ⟨vs, m, hvs, hplace', hm, hrest'⟩ := extract_placement kind (zone.drop start)
    rw [before] at hplace
    generalize hd : bytesOf inFlight? ++ zone.take start = d at hplace
    have hwhole : bytesOf inFlight? ++ zone = d ++ zone.drop start := by
      rw [← hd, List.append_assoc, List.take_append_drop]
    have hdrop : (d ++ zone.drop start).drop d.length = zone.drop start := List.drop_left
    rw [hwhole]
    rw [← hdrop] at hplace'
    refine ⟨us ++ vs.map (·.shift d.length), d.length + m, ?_,
      (hplace.extend (Nat.le_refl _) _).append hplace'.shift (Nat.zero_le _) (Nat.le_add_right _ _),
      ?_, fun p hp => ?_⟩
    · rw [List.map_append, map_packet_shift, hus, hvs]
      rfl
    · rw [List.length_append]
      exact Nat.add_le_add_left hm _
    · rw [← List.drop_drop, hdrop]
      exact ⟨extract_suspended hp, hrest' p hp⟩

end

end SpaceLink
