import SpaceLink.Proofs.Channel.Checked

/-!
# Cutting as parsing

Bytes fall into packets and a rest in one way only: `Parse` says what that is without saying how it
is found, and is unique because a complete packet is read the same whatever follows it. The loop
that cuts a zone finds this parse (`extract_parse`). It hands out the packets that do not only fill
space, and leaves the rest in flight as `Leftover` says.
-/

namespace SpaceLink

/-- The bytes are one packet, not shorter than its header and as long as that declares. -/
structure Delimited (kind : PacketKind) (p : Bytes) : Prop where
  headerLength_le : kind.headerLength p ≤ p.length
  declaredLength? : kind.declaredLength? p = some p.length

/-- The bytes are some packets, one after the other, and a tail that no packet starts. -/
structure Parse (kind : PacketKind) (d : Bytes) (ps : List Bytes) (tail : Bytes) : Prop where
  eq_append : d = ps.flatten ++ tail
  delimited : ∀ p ∈ ps, Delimited kind p
  maximal : ∀ p, p <+: tail → ¬Delimited kind p

/-- The packet is a byte that fills space between packets. -/
def FillsSpace (kind : PacketKind) (p : Bytes) : Bool := kind == .encapsulation && p.length == 1

/-- What the tail leaves in flight. -/
inductive Leftover (kind : PacketKind) (tail : Bytes) : Option PartialPacket → Prop
  | nothing (h : tail = []) : Leftover kind tail none
  | header (hne : tail ≠ []) (h : tail.length < kind.headerLength tail) :
    Leftover kind tail (some { bytes := tail, total? := none })
  | body {t : Nat} (ht : kind.declaredLength? tail = some t) (h : kind.headerLength tail ≤ t) :
    Leftover kind tail (some { bytes := tail, total? := some t })
  /-- The tail declares less than its own header, and is dropped. -/
  | malformed {t : Nat} (ht : kind.declaredLength? tail = some t)
    (h : t < kind.headerLength tail) : Leftover kind tail none

variable {kind : PacketKind} {d p tail tail' : Bytes} {ps ps' : List Bytes} {t : Nat}

theorem delimited_iff : Delimited kind p ↔ kind.packetLength? p = some p.length := by
  rw [PacketKind.packetLength?_eq_some_iff]
  constructor
  · exact fun h => ⟨h.declaredLength?, h.headerLength_le, Nat.le_refl _⟩
  · exact fun ⟨hdeclared, hheader, _⟩ => ⟨hheader, hdeclared⟩

namespace Delimited

theorem packetLength?_append (h : Delimited kind p) (rest : Bytes) :
    kind.packetLength? (p ++ rest) = some p.length :=
  PacketKind.packetLength?_append (delimited_iff.mp h)

theorem ne_nil (h : Delimited kind p) : p ≠ [] :=
  PacketKind.ne_nil_of_packetLength? (delimited_iff.mp h)

theorem headerLength_eq_one_iff (h : Delimited kind p) :
    kind.headerLength p = 1 ↔ FillsSpace kind p = true := by
  rw [FillsSpace, Bool.and_eq_true, beq_iff_eq, beq_iff_eq]
  constructor
  · intro h1
    have ht := PacketKind.declaredLength?_of_headerLength h.ne_nil h1
    rw [h.declaredLength?] at ht
    refine ⟨?_, Option.some.inj ht⟩
    cases kind with
    | space => cases h1
    | encapsulation => rfl
  · rintro ⟨-, h1⟩
    exact Nat.le_antisymm (h1 ▸ h.headerLength_le) (kind.headerLength_pos p)

theorem yield_append (h : Delimited kind p) (rest : Bytes) :
    yield kind (p ++ rest) p.length = [p].filter (!FillsSpace kind ·) := by
  rw [yield, PacketKind.headerLength_append h.ne_nil, List.take_left]
  simp only [h.headerLength_eq_one_iff]
  cases hf : FillsSpace kind p <;> simp [hf]

theorem of_take (h : kind.packetLength? d = some t) : Delimited kind (d.take t) := by
  have hle := PacketKind.packetLength?_le h
  rw [delimited_iff, PacketKind.packetLength?_take_of_some h, if_pos (Nat.le_refl t),
    List.length_take, Nat.min_eq_left hle]

end Delimited

/-- No packet starts the bytes exactly if none is complete there. -/
theorem packetLength?_eq_none_iff :
    kind.packetLength? tail = none ↔ ∀ p, p <+: tail → ¬Delimited kind p := by
  constructor
  · rintro h p ⟨rest, rfl⟩ hp
    rw [hp.packetLength?_append rest] at h
    cases h
  · intro h
    cases ht : kind.packetLength? tail with
    | none => rfl
    | some t => exact absurd (Delimited.of_take ht) (h _ (List.take_prefix t tail))

theorem leftover_held? (kind : PacketKind) (tail : Bytes) :
    Leftover kind tail (held? kind tail) := by
  by_cases hne : tail = []
  · rw [hne, held?_nil]
    exact .nothing rfl
  cases ht : kind.declaredLength? tail with
  | none =>
    rw [held?_of_none hne ht]
    exact .header hne (PacketKind.declaredLength?_eq_none_iff.mp ht)
  | some t =>
    rw [held?_of_some ht]
    split
    · exact .malformed ht ‹_›
    · exact .body ht (Nat.not_lt.mp ‹_›)

namespace Parse

theorem packetLength?_tail (h : Parse kind d ps tail) : kind.packetLength? tail = none :=
  packetLength?_eq_none_iff.mpr h.maximal

theorem nil (h : kind.packetLength? d = none) : Parse kind d [] d :=
  ⟨rfl, nofun, packetLength?_eq_none_iff.mp h⟩

theorem cons (ht : kind.packetLength? d = some t) (h : Parse kind (d.drop t) ps tail) :
    Parse kind d (d.take t :: ps) tail where
  eq_append := by
    rw [List.flatten_cons, List.append_assoc, ← h.eq_append, List.take_append_drop]
  delimited := List.forall_mem_cons.mpr ⟨.of_take ht, h.delimited⟩
  maximal := h.maximal

/-- A parse after its first packet. -/
theorem of_cons (h : Parse kind d (p :: ps) tail) :
    Delimited kind p ∧ d = p ++ (ps.flatten ++ tail) ∧
      Parse kind (ps.flatten ++ tail) ps tail := by
  obtain ⟨hp, hps⟩ := List.forall_mem_cons.mp h.delimited
  refine ⟨hp, ?_, rfl, hps, h.maximal⟩
  rw [h.eq_append, List.flatten_cons, List.append_assoc]

theorem exists_parse (kind : PacketKind) (d : Bytes) : ∃ ps tail, Parse kind d ps tail := by
  induction d using PacketKind.packet_induction kind with
  | rest d h => exact ⟨[], d, .nil h⟩
  | packet d t h ih =>
    obtain ⟨ps, tail, hparse⟩ := ih
    exact ⟨d.take t :: ps, tail, hparse.cons h⟩

theorem extract_eq (h : Parse kind d ps tail) :
    extract kind d = (ps.filter (!FillsSpace kind ·), held? kind tail) := by
  induction ps generalizing d with
  | nil =>
    obtain rfl : d = tail := h.eq_append
    exact extract_of_none h.packetLength?_tail
  | cons p ps ih =>
    obtain ⟨hp, rfl, hparse⟩ := h.of_cons
    rw [extract_of_some (hp.packetLength?_append _), List.drop_left, ih hparse,
      hp.yield_append, ← List.filter_append, List.singleton_append]

/-- Where the first packet ends does not depend on what follows, so there is only one parse. -/
theorem unique (h : Parse kind d ps tail) (h' : Parse kind d ps' tail') :
    ps = ps' ∧ tail = tail' := by
  induction ps generalizing d ps' with
  | nil =>
    obtain rfl : d = tail := h.eq_append
    cases ps' with
    | nil => exact ⟨rfl, h'.eq_append⟩
    | cons p' ps' =>
      obtain ⟨hp', rfl, -⟩ := h'.of_cons
      exact absurd hp' (h.maximal p' (List.prefix_append p' _))
  | cons p ps ih =>
    obtain ⟨hp, rfl, hparse⟩ := h.of_cons
    cases ps' with
    | nil =>
      obtain rfl : p ++ (ps.flatten ++ tail) = tail' := h'.eq_append
      exact absurd hp (h'.maximal p (List.prefix_append p _))
    | cons p' ps' =>
      obtain ⟨hp', heq, hparse'⟩ := h'.of_cons
      have hlen : p.length = p'.length := Option.some.inj <|
        (hp.packetLength?_append _).symm.trans (heq ▸ hp'.packetLength?_append _)
      obtain ⟨rfl, hrest⟩ := List.append_inj heq hlen
      obtain ⟨rfl, rfl⟩ := ih hparse (hrest ▸ hparse')
      exact ⟨rfl, rfl⟩

end Parse

/-- Cutting a zone from any offset on ends with the one parse of its bytes: all packets in it but
those that fill space are handed out, complete and in order, and the tail is what is left in
flight. -/
theorem extract_parse (kind : PacketKind) (zone : Bytes) (start : Nat) :
    ∃ ps tail inFlight?, Parse kind (zone.drop start) ps tail ∧
      (∀ ps' tail', Parse kind (zone.drop start) ps' tail' → ps' = ps ∧ tail' = tail) ∧
      Checked.extract kind zone (zone.length + 1) start =
        some (ps.filter (!FillsSpace kind ·), inFlight?) ∧
      advance kind none zone (some start) =
        ((ps.filter (!FillsSpace kind ·)).map fun bytes => { bytes, complete := true }, inFlight?) ∧
      Leftover kind tail inFlight? := by
  obtain ⟨ps, tail, h⟩ := Parse.exists_parse kind (zone.drop start)
  refine ⟨ps, tail, held? kind tail, h, fun _ _ h' => h'.unique h, ?_, ?_, leftover_held? kind tail⟩
  · rw [Checked.extract_eq kind zone (Nat.sub_le _ _), h.extract_eq]
  · rw [advance]
    dsimp only
    rw [h.extract_eq]
    rfl

end SpaceLink
