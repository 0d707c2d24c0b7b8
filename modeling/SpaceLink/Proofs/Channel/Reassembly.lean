import SpaceLink.Channel.Reassembly
import SpaceLink.Proofs.Packet.Delimiting

/-!
# Reassembly as a function of the bytes

What is in flight is determined by its bytes alone: `held?` computes it, and `Suspended` says that a
packet in flight is what `held?` makes of its bytes. Resuming a packet is then looking at the held
bytes and the new ones together (`PartialPacket.resume_eq`), and taking two zones one after the
other is taking them as one (`advance_extract`).
-/

namespace SpaceLink

variable {kind : PacketKind} {d e : Bytes} {t : Nat}

/-- What stays in flight of bytes that do not begin with a complete packet: all of them, unless
there are none, or their header declares less than itself. -/
def held? (kind : PacketKind) (d : Bytes) : Option PartialPacket :=
  if d = [] then none
  else match kind.declaredLength? d with
    | none => some { bytes := d, total? := none }
    | some t => if t < kind.headerLength d then none else some { bytes := d, total? := some t }

@[simp] theorem held?_nil : held? kind [] = none := if_pos rfl

theorem held?_of_none (hd : d ≠ []) (h : kind.declaredLength? d = none) :
    held? kind d = some { bytes := d, total? := none } := by
  rw [held?, if_neg hd, h]

theorem held?_of_some (h : kind.declaredLength? d = some t) :
    held? kind d = if t < kind.headerLength d then none else some { bytes := d, total? := some t } := by
  rw [held?, if_neg (PacketKind.ne_nil_of_declaredLength? h), h]

/-- A held packet has the given bytes and knows its length as soon as they have a header. -/
theorem held?_eq_some {p : PartialPacket} (h : held? kind d = some p) :
    p.bytes = d ∧ d ≠ [] ∧ p.total? = kind.declaredLength? d ∧
      ∀ t ∈ p.total?, kind.headerLength d ≤ t := by
  by_cases hd : d = []
  · simp [hd] at h
  cases ht : kind.declaredLength? d with
  | none =>
    rw [held?_of_none hd ht] at h
    cases h
    exact ⟨rfl, hd, rfl, nofun⟩
  | some t =>
    rw [held?_of_some ht] at h
    split at h
    · cases h
    · cases h
      refine ⟨rfl, hd, rfl, fun t' ht' => ?_⟩
      cases ht'
      exact Nat.not_lt.mp ‹_›

/-- Bytes are dropped only if their header is complete and declares less than itself. -/
theorem held?_eq_none (hd : d ≠ []) (h : held? kind d = none) :
    ∃ t, kind.declaredLength? d = some t ∧ t < kind.headerLength d := by
  cases ht : kind.declaredLength? d with
  | none => simp [held?_of_none hd ht] at h
  | some t =>
    rw [held?_of_some ht] at h
    split at h
    · exact ⟨t, rfl, ‹_›⟩
    · cases h

/-- A packet in flight: its bytes have no complete packet at their start and are held. -/
structure PartialPacket.Suspended (kind : PacketKind) (p : PartialPacket) : Prop where
  incomplete : kind.packetLength? p.bytes = none
  held : held? kind p.bytes = some p

namespace PartialPacket.Suspended

variable {p : PartialPacket}

theorem of_held? (hd : kind.packetLength? d = none) (h : held? kind d = some p) :
    p.Suspended kind := by
  obtain ⟨rfl, -⟩ := held?_eq_some h
  exact ⟨hd, h⟩

theorem bytes_ne_nil (h : p.Suspended kind) : p.bytes ≠ [] := (held?_eq_some h.held).2.1

theorem total?_eq (h : p.Suspended kind) : p.total? = kind.declaredLength? p.bytes :=
  (held?_eq_some h.held).2.2.1

theorem headerLength_le (h : p.Suspended kind) (ht : p.total? = some t) :
    kind.headerLength p.bytes ≤ t :=
  (held?_eq_some h.held).2.2.2 t ht

theorem length_lt (h : p.Suspended kind) (ht : p.total? = some t) : p.bytes.length < t := by
  refine Nat.not_le.mp fun hle => ?_
  have := PacketKind.packetLength?_eq_some_iff.mpr
    ⟨h.total?_eq ▸ ht, h.headerLength_le ht, hle⟩
  rw [h.incomplete] at this
  cases this

end PartialPacket.Suspended

/-! ## Filling a header -/

theorem fillHeader_append (held input : Bytes) :
    (fillHeader kind held input).1 ++ (fillHeader kind held input).2 = held ++ input := by
  induction input generalizing held with
  | nil => rfl
  | cons b input ih =>
    rw [fillHeader]
    split
    · rfl
    · rw [ih, List.append_assoc, List.singleton_append]

theorem fillHeader_ne_nil {held : Bytes} (h : held ≠ []) (input : Bytes) :
    (fillHeader kind held input).1 ≠ [] := by
  induction input generalizing held with
  | nil => exact h
  | cons b input ih =>
    rw [fillHeader]
    split
    · exact h
    · exact ih (List.append_ne_nil_of_left_ne_nil h _)

/-- Either the header is complete or the input is used up. -/
theorem fillHeader_complete (held input : Bytes) :
    (fillHeader kind held input).2 = [] ∨
      (kind.declaredLength? (fillHeader kind held input).1).isSome := by
  induction input generalizing held with
  | nil => exact .inl rfl
  | cons b input ih =>
    rw [fillHeader]
    split
    · exact .inr ‹_›
    · exact ih _

/-- No byte beyond the header is moved. -/
theorem length_fillHeader_le {held : Bytes} (input : Bytes)
    (h : held.length ≤ kind.headerLength held) :
    (fillHeader kind held input).1.length ≤ kind.headerLength (fillHeader kind held input).1 := by
  induction input generalizing held with
  | nil => exact h
  | cons b input ih =>
    rw [fillHeader]
    split
    · exact h
    · rename_i hb
      refine ih ?_
      rw [PacketKind.declaredLength?_isSome_iff] at hb
      have : kind.headerLength held ≤ kind.headerLength (held ++ [b]) :=
        PacketKind.headerLength_le_append
      rw [List.length_append, List.length_singleton]
      omega

/-! ## Resuming a packet -/

/-- What the bytes from the start of a packet on give, when the next packet starts after them
(`interrupted`) or the bytes end: the packet, if it is complete, and else what is left of it. -/
def settle (kind : PacketKind) (d : Bytes) (interrupted : Bool) :
    Option Extracted × Option PartialPacket :=
  match kind.packetLength? d with
  | some t => (some { bytes := d.take t, complete := true }, none)
  | none => if interrupted then ((held? kind d).bind (·.close?), none) else (none, held? kind d)

/-- The bytes of a zone that belong to the packet in flight, when the next one starts at
`start?`. -/
def before (zone : Bytes) : (start? : Option Nat) → Bytes
  | some start => zone.take start
  | none => zone

theorem settle_of_some (h : kind.packetLength? d = some t) (interrupted : Bool) :
    settle kind d interrupted = (some { bytes := d.take t, complete := true }, none) := by
  rw [settle, h]

theorem settle_of_none (h : kind.packetLength? d = none) :
    settle kind d false = (none, held? kind d) := by
  rw [settle, h]
  rfl

/-- Once the header is complete or the input used up, what becomes of a packet depends on all its
bytes together. -/
theorem settle_of_header (held input : Bytes) (interrupted : Bool) (hh : held ≠ [])
    (hend : input = [] ∨ (kind.declaredLength? held).isSome)
    (hle : ∀ t, kind.declaredLength? held = some t → kind.headerLength held ≤ t → held.length ≤ t) :
    (match kind.declaredLength? held with
      | none => (none, if interrupted then none else some { bytes := held, total? := none })
      | some total =>
        if total < kind.headerLength held then (none, none)
        else
          let bytes := held ++ input.take (total - held.length)
          if total ≤ bytes.length then (some { bytes, complete := true }, none)
          else if interrupted then (some { bytes, complete := false }, none)
          else (none, some { bytes, total? := some total })) =
      settle kind (held ++ input) interrupted := by
  cases ht : kind.declaredLength? held with
  | none =>
    obtain rfl : input = [] := by simpa [ht] using hend
    have hp : kind.packetLength? held = none := by
      rw [PacketKind.packetLength?, ht, Option.filter_none]
    rw [List.append_nil, settle, hp, held?_of_none hh ht]
    cases interrupted <;> rfl
  | some t =>
    have ha := PacketKind.declaredLength?_append (e := input) ht
    have hl : kind.headerLength (held ++ input) = kind.headerLength held :=
      PacketKind.headerLength_append hh
    have hp := PacketKind.packetLength?_of_declaredLength? ha
    rw [hl, List.length_append] at hp
    dsimp only
    by_cases hm : t < kind.headerLength held
    · rw [if_neg (by omega)] at hp
      rw [if_pos hm, settle, hp, held?_of_some ha, hl, if_pos hm]
      cases interrupted <;> rfl
    have hlt := hle t ht (Nat.not_lt.mp hm)
    rw [if_neg hm, settle, List.length_append, List.length_take]
    by_cases hc : t ≤ held.length + input.length
    · rw [if_pos (by omega)] at hp
      rw [hp, if_pos (by omega)]
      dsimp only
      rw [List.take_append, List.take_of_length_le hlt]
    · rw [if_neg (by omega)] at hp
      rw [hp, if_neg (by omega), held?_of_some ha, hl, if_neg hm, List.take_of_length_le (by omega)]
      cases interrupted <;> rfl

/-- A packet is continued by looking at its bytes so far and the new ones together. -/
theorem PartialPacket.resume_eq {p : PartialPacket} (h : p.Suspended kind) (zone : Bytes)
    (start? : Option Nat) :
    p.resume kind zone start? = settle kind (p.bytes ++ before zone start?) start?.isSome := by
  have hbytes := h.bytes_ne_nil
  cases ht : p.total? with
  | some t =>
    have hd := h.total?_eq ▸ ht
    rw [← settle_of_header p.bytes _ _ hbytes (.inr (hd ▸ rfl)), hd]
    · cases start? <;> simp only [resume, before, ht] <;> rfl
    · intro t' ht' _
      rw [hd] at ht'
      cases ht'
      exact Nat.le_of_lt (h.length_lt ht)
  | none =>
    have hd := h.total?_eq ▸ ht
    have hle := length_fillHeader_le (before zone start?)
      (Nat.le_of_lt (PacketKind.declaredLength?_eq_none_iff.mp hd))
    rw [← fillHeader_append, ← settle_of_header _ _ _ ?_ (fillHeader_complete p.bytes _)
      fun t' _ ht' => Nat.le_trans hle ht']
    · cases start? <;> simp only [resume, before, ht] <;> rfl
    · exact fillHeader_ne_nil hbytes _

/-! ## Cutting a zone -/

/-- What is handed out of a complete packet of `t` bytes at the start of `d`: nothing, if it only
fills space. -/
def yield (kind : PacketKind) (d : Bytes) (t : Nat) : List Bytes :=
  if kind.headerLength d = 1 then [] else [d.take t]

theorem extract_of_none (h : kind.packetLength? d = none) : extract kind d = ([], held? kind d) := by
  cases d with
  | nil => rw [extract, held?_nil]
  | cons b d =>
    rw [extract]
    cases ht : kind.declaredLength? (b :: d) with
    | none => rw [held?_of_none (List.cons_ne_nil _ _) ht]
    | some t =>
      have h1 := PacketKind.headerLength_ne_one (List.cons_ne_nil _ _) h
      rw [PacketKind.packetLength?_of_declaredLength? ht] at h
      have hle : ¬(kind.headerLength (b :: d) ≤ t ∧ t ≤ (b :: d).length) := fun hc => by
        rw [if_pos hc] at h
        cases h
      rw [held?_of_some ht]
      dsimp only
      rw [if_neg h1]
      split
      · rfl
      · rw [if_pos (by omega)]

theorem extract_of_some (h : kind.packetLength? d = some t) :
    extract kind d = (yield kind d t ++ (extract kind (d.drop t)).1, (extract kind (d.drop t)).2) := by
  obtain ⟨ht, hh, hl⟩ := PacketKind.packetLength?_eq_some_iff.mp h
  cases d with
  | nil => simp at h
  | cons b d =>
    rw [extract, ht]
    dsimp only
    by_cases h1 : kind.headerLength (b :: d) = 1
    · rw [PacketKind.declaredLength?_of_headerLength (List.cons_ne_nil _ _) h1] at ht
      cases ht
      rw [if_pos h1, yield, if_pos h1]
      rfl
    · rw [if_neg h1, if_neg (by omega), if_neg (by omega), yield, if_neg h1]
      rfl

theorem extract_suspended {p : PartialPacket} (h : (extract kind d).2 = some p) :
    p.Suspended kind := by
  induction d using PacketKind.packet_induction kind with
  | rest d hd =>
    rw [extract_of_none hd] at h
    exact .of_held? hd h
  | packet d t hd ih =>
    rw [extract_of_some hd] at h
    exact ih h

/-! ## Taking a zone -/

/-- The first of some offsets that lies at `o` or after, counted from there. -/
def firstFrom (starts : List Nat) (o : Nat) : Option Nat :=
  (starts.find? (o ≤ ·)).map (· - o)

theorem firstFrom_cons_of_le {s o : Nat} (h : o ≤ s) (starts : List Nat) :
    firstFrom (s :: starts) o = some (s - o) := by
  rw [firstFrom, List.find?_cons_of_pos (by simpa using h)]
  rfl

theorem firstFrom_cons_of_lt {s o : Nat} (h : s < o) (starts : List Nat) :
    firstFrom (s :: starts) o = firstFrom starts o := by
  rw [firstFrom, firstFrom, List.find?_cons_of_neg (by simpa using h)]

/-- Moving offsets and origin together changes nothing. -/
theorem firstFrom_map_add (starts : List Nat) (o t : Nat) :
    firstFrom (starts.map (· + t)) (o + t) = firstFrom starts o := by
  rw [firstFrom, firstFrom, List.find?_map, Option.map_map]
  congr 1
  · funext s
    exact Nat.add_sub_add_right s t o
  · congr 1
    funext s
    simp

private theorem advance_malformed (e : Bytes) (hd : d ≠ [])
    (hh : held? kind d = none) :
    (extract kind (d ++ e)).1 = [] ∧
      advance kind none e (firstFrom (kind.packetStarts (d ++ e)) d.length) =
        ([], (extract kind (d ++ e)).2) := by
  have hpos := List.length_pos_iff.mpr hd
  obtain ⟨t, ht, hlt⟩ := held?_eq_none hd hh
  have ha := PacketKind.declaredLength?_append (e := e) ht
  have hl : kind.headerLength (d ++ e) = kind.headerLength d := PacketKind.headerLength_append hd
  have hp := PacketKind.packetLength?_of_declaredLength? ha
  rw [hl, if_neg (by omega)] at hp
  rw [extract_of_none hp, held?_of_some ha, hl, if_pos hlt, PacketKind.packetStarts_of_none
    (List.append_ne_nil_of_left_ne_nil hd _) hp, firstFrom_cons_of_lt hpos]
  exact ⟨rfl, rfl⟩

private theorem advance_of_none {p : PartialPacket} (hp : p.Suspended kind)
    (h : kind.packetLength? (p.bytes ++ e) = none) :
    (extract kind (p.bytes ++ e)).1 = [] ∧
      advance kind (some p) e (firstFrom (kind.packetStarts (p.bytes ++ e)) p.bytes.length) =
        ([], (extract kind (p.bytes ++ e)).2) := by
  rw [extract_of_none h, PacketKind.packetStarts_of_none
    (List.append_ne_nil_of_left_ne_nil hp.bytes_ne_nil _) h,
    firstFrom_cons_of_lt (List.length_pos_iff.mpr hp.bytes_ne_nil)]
  refine ⟨rfl, ?_⟩
  show ((p.resume kind e none).1.toList, (p.resume kind e none).2) = _
  rw [PartialPacket.resume_eq hp, before, Option.isSome_none, settle_of_none h]
  rfl

private theorem advance_of_some {p : PartialPacket} (hp : p.Suspended kind)
    (h : kind.packetLength? (p.bytes ++ e) = some t) :
    advance kind (some p) e (firstFrom (kind.packetStarts (p.bytes ++ e)) p.bytes.length) =
      ((extract kind (p.bytes ++ e)).1.map fun bytes => { bytes, complete := true },
        (extract kind (p.bytes ++ e)).2) := by
  have hpos := List.length_pos_iff.mpr hp.bytes_ne_nil
  have hle := PacketKind.packetLength?_le h
  have hlt : p.bytes.length < t := Nat.not_le.mp fun hle => by
    have := PacketKind.packetLength?_of_append h hle
    rw [hp.incomplete] at this
    cases this
  have hy : yield kind (p.bytes ++ e) t = [(p.bytes ++ e).take t] := by
    rw [yield, PacketKind.headerLength_append hp.bytes_ne_nil,
      if_neg (PacketKind.headerLength_ne_one hp.bytes_ne_nil hp.incomplete)]
  rw [extract_of_some h, PacketKind.packetStarts_of_some h, firstFrom_cons_of_lt hpos, hy]
  by_cases hr : (p.bytes ++ e).drop t = []
  · rw [hr, PacketKind.packetStarts_nil]
    show ((p.resume kind e none).1.toList, (p.resume kind e none).2) = _
    rw [PartialPacket.resume_eq hp, before, settle_of_some h]
    simp [extract]
  · -- the next packet starts where this one ends
    obtain ⟨starts, hs⟩ := kind.packetStarts_of_ne_nil hr
    have hf : firstFrom ((0 :: starts).map (· + t)) p.bytes.length =
        some (t - p.bytes.length) := by
      rw [List.map_cons, Nat.zero_add, firstFrom_cons_of_le (Nat.le_of_lt hlt)]
    have hb : p.bytes ++ e.take (t - p.bytes.length) = (p.bytes ++ e).take t := by
      rw [List.take_append, List.take_of_length_le (Nat.le_of_lt hlt)]
    have hd : e.drop (t - p.bytes.length) = (p.bytes ++ e).drop t := by
      rw [List.drop_append, List.drop_of_length_le (Nat.le_of_lt hlt), List.nil_append]
    have ht : kind.packetLength? ((p.bytes ++ e).take t) = some t := by
      rw [PacketKind.packetLength?_take_of_some h, if_pos (Nat.le_refl t)]
    rw [hs, hf, advance]
    dsimp only
    rw [PartialPacket.resume_eq hp, before, hb, settle_of_some ht, hd, List.take_take, Nat.min_self]
    rfl

/-- Taking a zone `e` after the bytes `d` that began with a packet, when the first packet that
starts in `e` is found as one of the whole, is taking the whole. -/
theorem advance_extract (kind : PacketKind) (d e : Bytes) :
    ∃ packets, (extract kind (d ++ e)).1 = (extract kind d).1 ++ packets ∧
      advance kind (extract kind d).2 e (firstFrom (kind.packetStarts (d ++ e)) d.length) =
        (packets.map fun bytes => { bytes, complete := true }, (extract kind (d ++ e)).2) := by
  induction d using PacketKind.packet_induction kind with
  | packet d t h ih =>
    -- the first packet lies in `d`, and offsets count from its end
    obtain ⟨packets, h1, h2⟩ := ih
    have ht := PacketKind.packetLength?_le h
    have hpos := PacketKind.packetLength?_pos h
    have ha := PacketKind.packetLength?_append (e := e) h
    refine ⟨packets, ?_, ?_⟩
    · rw [extract_of_some h, extract_of_some ha, List.drop_append_of_le_length ht, h1,
        List.append_assoc, yield, yield, PacketKind.headerLength_append
          (PacketKind.ne_nil_of_packetLength? h), List.take_append_of_le_length ht]
    · rw [extract_of_some h, extract_of_some ha, PacketKind.packetStarts_of_some ha,
        firstFrom_cons_of_lt (by omega), List.drop_append_of_le_length ht, ← h2]
      have : d.length = (d.drop t).length + t := by rw [List.length_drop]; omega
      rw [this, firstFrom_map_add]
  | rest d h =>
    -- no packet ends in `d`, so what matters is what is held of it
    rw [extract_of_none h]
    by_cases hd : d = []
    · subst hd
      refine ⟨_, rfl, ?_⟩
      rw [held?_nil, List.nil_append, List.length_nil]
      by_cases he : e = []
      · simp [he, firstFrom, advance, extract]
      · obtain ⟨starts, hs⟩ := kind.packetStarts_of_ne_nil he
        rw [hs, firstFrom_cons_of_le (Nat.le_refl 0)]
        rfl
    cases hh : held? kind d with
    | none => exact ⟨[], advance_malformed e hd hh⟩
    | some p =>
      obtain ⟨rfl, -⟩ := held?_eq_some hh
      have hp : p.Suspended kind := .of_held? h hh
      cases ht : kind.packetLength? (p.bytes ++ e) with
      | none => exact ⟨[], advance_of_none hp ht⟩
      | some t => exact ⟨_, rfl, advance_of_some hp ht⟩

end SpaceLink
