import Mathlib.Data.List.Pairwise
import Mathlib.Data.List.Sort
import SpaceLink.Proofs.Channel.Stream

/-!
# Packets laid end to end

A stream of whole packets. `located` gives each its offset. What a receiver that began at `w` has
when it has taken the stream up to `o` is, of these packets, those that lie between the two
(`packets_between`), and in flight is the beginning of one of them (`prefix_of_inFlight`).
-/

namespace SpaceLink

variable {kind : PacketKind} {p : Bytes} {ps : List Bytes} {w o : Nat}

/-- Declares exactly its length, and is not a byte that fills space. -/
structure WholePacket (kind : PacketKind) (p : Bytes) : Prop where
  packetLength? : kind.packetLength? p = some p.length
  headerLength_ne_one : kind.headerLength p ≠ 1

/-- The packets with their offsets in the stream that they make. -/
def located : List Bytes → List (Bytes × Nat)
  | [] => []
  | p :: ps => (p, 0) :: (located ps).map fun q => (q.1, q.2 + p.length)

namespace WholePacket

theorem of_declaredLength? (h : kind.declaredLength? p = some p.length)
    (h1 : kind.headerLength p ≠ 1) : WholePacket kind p where
  packetLength? := PacketKind.packetLength?_eq_some_iff.mpr
    ⟨h, PacketKind.headerLength_le_length h, Nat.le_refl _⟩
  headerLength_ne_one := h1

theorem ne_nil (h : WholePacket kind p) : p ≠ [] :=
  PacketKind.ne_nil_of_packetLength? h.packetLength?

theorem length_pos (h : WholePacket kind p) : 0 < p.length := List.length_pos_iff.mpr h.ne_nil

theorem packetLength?_append (h : WholePacket kind p) (rest : Bytes) :
    kind.packetLength? (p ++ rest) = some p.length :=
  PacketKind.packetLength?_append h.packetLength?

theorem extract_append (h : WholePacket kind p) (rest : Bytes) :
    extract kind (p ++ rest) = (p :: (extract kind rest).1, (extract kind rest).2) := by
  rw [extract_of_some (h.packetLength?_append rest), yield, PacketKind.headerLength_append h.ne_nil,
    if_neg h.headerLength_ne_one, List.take_left, List.drop_left]
  rfl

end WholePacket

/-- The packets of the stream start where they were put. -/
theorem packetStarts_flatten (h : ∀ p ∈ ps, WholePacket kind p) :
    kind.packetStarts ps.flatten = (located ps).map (·.2) := by
  induction ps with
  | nil => rw [List.flatten_nil, PacketKind.packetStarts_nil, located, List.map_nil]
  | cons p ps ih =>
    rw [List.flatten_cons, PacketKind.packetStarts_of_some
      ((h p List.mem_cons_self).packetLength?_append _), List.drop_left,
      ih fun q hq => h q (List.mem_cons_of_mem p hq), located, List.map_cons, List.map_map,
      List.map_map]
    rfl

theorem mem_of_mem_located {q : Bytes × Nat} (h : q ∈ located ps) : q.1 ∈ ps := by
  induction ps generalizing q with
  | nil => cases h
  | cons p ps ih =>
    rcases List.mem_cons.mp h with rfl | h
    · exact List.mem_cons_self
    · obtain ⟨q, hq, rfl⟩ := List.mem_map.mp h
      have : q.1 ∈ ps := ih hq
      exact List.mem_cons_of_mem p this

theorem end_le_of_mem_located {q : Bytes × Nat} (h : q ∈ located ps) :
    q.2 + q.1.length ≤ ps.flatten.length := by
  induction ps generalizing q with
  | nil => cases h
  | cons p ps ih =>
    rw [List.flatten_cons, List.length_append]
    rcases List.mem_cons.mp h with rfl | h
    · dsimp only
      omega
    · obtain ⟨q, hq, rfl⟩ := List.mem_map.mp h
      have := ih hq
      dsimp only
      omega

/-- A packet ends before the next one starts. -/
theorem located_pairwise (ps : List Bytes) :
    (located ps).Pairwise fun q r => q.2 + q.1.length ≤ r.2 := by
  induction ps with
  | nil => exact .nil
  | cons p ps ih =>
    refine List.pairwise_cons.mpr ⟨fun r hr => ?_, ?_⟩
    · obtain ⟨r, -, rfl⟩ := List.mem_map.mp hr
      dsimp only
      omega
    · refine List.pairwise_map.mpr (ih.imp fun h => ?_)
      dsimp only
      omega

theorem located_ordered (h : ∀ p ∈ ps, p ≠ []) :
    (located ps).Pairwise fun q r => q.2 < r.2 := by
  refine (located_pairwise ps).imp_of_mem fun hq _ hqr => ?_
  have := List.length_pos_iff.mpr (h _ (mem_of_mem_located hq))
  omega

/-- Of two packets, the one that ends first starts first. -/
theorem start_lt_of_end_lt (h : ∀ p ∈ ps, p ≠ []) {q r : Bytes × Nat} (hq : q ∈ located ps)
    (hr : r ∈ located ps) (hqr : q.2 + q.1.length < r.2 + r.1.length) : q.2 < r.2 := by
  have hpos := List.length_pos_iff.mpr (h _ (mem_of_mem_located hq))
  let R (q r : Bytes × Nat) := q.2 + q.1.length ≤ r.2 ∨ r.2 + r.1.length ≤ q.2
  have hsymm : Std.Symm R := ⟨fun _ _ => Or.symm⟩
  have hdisjoint : R q r :=
    ((located_pairwise ps).imp (S := R) Or.inl).forall hq hr fun he => by simp [he] at hqr
  rcases hdisjoint with h | h <;> omega

/-- Packets of the stream that are in order are some of them in turn. -/
theorem sublist_located (h : ∀ p ∈ ps, p ≠ []) {qs : List (Bytes × Nat)}
    (hmem : ∀ q ∈ qs, q ∈ located ps) (hqs : qs.Pairwise fun q r => q.2 < r.2) :
    qs.Sublist (located ps) := by
  have : Std.Antisymm fun q r : Bytes × Nat => q.2 < r.2 :=
    ⟨fun _ _ h h' => absurd (Nat.lt_trans h h') (Nat.lt_irrefl _)⟩
  have hnodup : qs.Nodup := hqs.imp fun {q r} h => by
    rintro rfl
    exact Nat.lt_irrefl _ h
  exact List.sublist_of_subperm_of_pairwise (List.subperm_of_subset hnodup hmem) hqs
    (located_ordered h)

/-- The packets that end up to an offset come before those that end later. -/
theorem filter_located (ps : List Bytes) (P : Bytes × Nat → Prop) [DecidablePred P] (o : Nat) :
    (located ps).filter P =
      (located ps).filter (fun q => P q ∧ q.2 + q.1.length ≤ o) ++
        (located ps).filter (fun q => P q ∧ o < q.2 + q.1.length) := by
  generalize located ps = l, located_pairwise ps = hl
  simp only [Bool.decide_and]
  induction hl with
  | nil => rfl
  | @cons q l hq _ ih =>
    by_cases ho : q.2 + q.1.length ≤ o
    · have ho' : ¬o < q.2 + q.1.length := Nat.not_lt.mpr ho
      by_cases hP : P q
      · simpa [List.filter_cons, hP, ho, ho'] using ih
      · simpa [List.filter_cons, hP] using ih
    · have hnone : l.filter (fun q => P q && q.2 + q.1.length ≤ o) = [] := by
        refine List.filter_eq_nil_iff.mpr fun r hr => ?_
        have := hq r hr
        simp only [Bool.and_eq_true, decide_eq_true_eq]
        omega
      have ho' : o < q.2 + q.1.length := Nat.not_le.mp ho
      rw [hnone, List.nil_append] at ih
      by_cases hP : P q
      · simpa [List.filter_cons, hP, ho, ho', hnone] using ih
      · simpa [List.filter_cons, hP, hnone] using ih

section
variable (hp : WholePacket kind p) (rest : Bytes)
include hp

/-- A receiver that began after the start does not have the first packet. -/
theorem between_resync_append (hw : 0 < w) :
    Bytes.between (resync kind (p ++ rest) w) o (p ++ rest) =
      Bytes.between (resync kind rest (w - p.length)) (o - p.length) rest := by
  rw [resync_of_some (hp.packetLength?_append rest) hw, List.drop_left, Bytes.between_append_right]

theorem extract_between_zero (ho : p.length ≤ o) :
    extract kind (Bytes.between (resync kind (p ++ rest) 0) o (p ++ rest)) =
      (p :: (extract kind (Bytes.between (resync kind rest 0) (o - p.length) rest)).1,
        (extract kind (Bytes.between (resync kind rest 0) (o - p.length) rest)).2) := by
  rw [resync_zero, resync_zero, Bytes.between, Bytes.between, List.drop_zero, List.drop_zero,
    List.take_append, List.take_of_length_le ho, hp.extract_append]

theorem extract_between_of_lt (ho : o < p.length) :
    extract kind (Bytes.between (resync kind (p ++ rest) 0) o (p ++ rest)) =
      ([], held? kind (p.take o)) := by
  have := PacketKind.packetLength?_take_of_some (n := o) hp.packetLength?
  rw [if_neg (Nat.not_le.mpr ho)] at this
  rw [resync_zero, Bytes.between, List.drop_zero, List.take_append_of_le_length (Nat.le_of_lt ho),
    extract_of_none this]

end

/-- A receiver that began at `w` has the packets that lie between there and where it is. -/
theorem packets_between (h : ∀ p ∈ ps, WholePacket kind p) :
    (extract kind (Bytes.between (resync kind ps.flatten w) o ps.flatten)).1 =
      ((located ps).filter fun q => w ≤ q.2 ∧ q.2 + q.1.length ≤ o).map (·.1) := by
  induction ps generalizing w o with
  | nil =>
    rw [List.flatten_nil, Bytes.between, List.take_nil, List.drop_nil, extract]
    rfl
  | cons p ps ih =>
    have hp := h p List.mem_cons_self
    have hps : ∀ q ∈ ps, WholePacket kind q := fun q hq => h q (List.mem_cons_of_mem p hq)
    -- past the first packet, offsets count from its end
    have hshift : (((located ps).map fun q => (q.1, q.2 + p.length)).filter
        fun q => w ≤ q.2 ∧ q.2 + q.1.length ≤ o).map (·.1) =
        ((located ps).filter fun q => w - p.length ≤ q.2 ∧ q.2 + q.1.length ≤ o - p.length).map
          (·.1) := by
      rw [List.filter_map, List.map_map]
      congr 1
      refine List.filter_congr fun q hq => ?_
      have := (hps q.1 (mem_of_mem_located hq)).length_pos
      simp only [Function.comp_apply, decide_eq_decide]
      omega
    rw [List.flatten_cons, located]
    rcases Nat.eq_zero_or_pos w with rfl | hw
    · rcases Nat.lt_or_ge o p.length with ho | ho
      · rw [extract_between_of_lt hp _ ho, List.filter_cons_of_neg (by simp; omega), hshift]
        refine (List.map_eq_nil_iff.mpr (List.filter_eq_nil_iff.mpr fun q hq => ?_)).symm
        have := (hps q.1 (mem_of_mem_located hq)).length_pos
        simp only [decide_eq_true_eq]
        omega
      · rw [extract_between_zero hp _ ho, List.filter_cons_of_pos (by simp; omega), List.map_cons,
          hshift, ih hps, Nat.zero_sub]
    · rw [between_resync_append hp _ hw, ih hps, List.filter_cons_of_neg (by simp; omega), hshift]

/-- What a receiver has in flight is the beginning of a packet that starts where it began or later,
and that ends later. -/
theorem prefix_of_inFlight (h : ∀ p ∈ ps, WholePacket kind p) {held : PartialPacket}
    (hh : (extract kind (Bytes.between (resync kind ps.flatten w) o ps.flatten)).2 = some held) :
    ∃ q ∈ located ps, held.bytes <+: q.1 ∧ w ≤ q.2 ∧ q.2 < o ∧ o < q.2 + q.1.length := by
  induction ps generalizing w o with
  | nil =>
    rw [List.flatten_nil, Bytes.between, List.take_nil, List.drop_nil, extract] at hh
    cases hh
  | cons p ps ih =>
    have hp := h p List.mem_cons_self
    have hps : ∀ q ∈ ps, WholePacket kind q := fun q hq => h q (List.mem_cons_of_mem p hq)
    have hshift : (∃ q ∈ located ps, held.bytes <+: q.1 ∧ w - p.length ≤ q.2 ∧
        q.2 < o - p.length ∧ o - p.length < q.2 + q.1.length) →
        ∃ q ∈ located (p :: ps), held.bytes <+: q.1 ∧ w ≤ q.2 ∧ q.2 < o ∧
          o < q.2 + q.1.length := by
      rintro ⟨q, hq, hpre, hw, hlo, hhi⟩
      refine ⟨(q.1, q.2 + p.length), List.mem_cons_of_mem _ (List.mem_map_of_mem hq), hpre, ?_⟩
      dsimp only
      omega
    rw [List.flatten_cons] at hh
    rcases Nat.eq_zero_or_pos w with rfl | hw
    · rcases Nat.lt_or_ge o p.length with ho | ho
      · rw [extract_between_of_lt hp _ ho] at hh
        obtain ⟨hb, hne, -⟩ := held?_eq_some hh
        refine ⟨(p, 0), List.mem_cons_self, hb ▸ List.take_prefix o p, Nat.le_refl 0, ?_, ?_⟩
        · exact Nat.pos_of_ne_zero fun h0 => hne (by rw [h0, List.take_zero])
        · simpa using ho
      · rw [extract_between_zero hp _ ho] at hh
        exact hshift (by rw [Nat.zero_sub]; exact ih hps hh)
    · rw [between_resync_append hp _ hw] at hh
      exact hshift (ih hps hh)

end SpaceLink
