import Mathlib.Data.List.Chain
import Mathlib.Data.List.Forall2
import SpaceLink.Proofs.Channel.Sequence
import SpaceLink.Proofs.Channel.Transmission

/-!
# Packets of which some frames are received

The frames that are received are given by their places among those that are sent. A packet is
`WhollyReceived` or has lost a frame (`Torn`); the second is known for sure once a later frame is
received. `Delivery` says of which packets something is handed out, and what.

What is received since the last loss is the `LastRun`.
-/

namespace SpaceLink

/-! ## Received frames -/

section Received

variable {m : Nat} {js : List (Fin m)} {j : Fin m} {first : Nat}

/-- The frame that follows the last one received. -/
def upcoming (js : List (Fin m)) : Nat := (js.getLast?.map (·.val + 1)).getD 0

theorem upcoming_concat (js : List (Fin m)) (j : Fin m) : upcoming (js ++ [j]) = j + 1 := by
  rw [upcoming, List.getLast?_concat]
  rfl

/-- The frames from `first` on are those that were received since the last loss. -/
structure LastRun (js : List (Fin m)) (first : Nat) : Prop where
  le : first ≤ upcoming js
  lt : ∀ j ∈ js, j.val < upcoming js
  received : ∀ j : Fin m, first ≤ j → j.val < upcoming js → j ∈ js
  lost : ∀ j : Fin m, j + 1 = first → j ∉ js

namespace LastRun

theorem nil : LastRun ([] : List (Fin m)) 0 :=
  ⟨Nat.le_refl 0, nofun, fun _ _ h => absurd h (Nat.not_lt_zero _), nofun⟩

theorem lt_succ (h : LastRun js first) (hj : upcoming js ≤ j) {i : Fin m} (hi : i ∈ js ++ [j]) :
    i.val < j + 1 := by
  rcases List.mem_append.mp hi with hi | hi
  · exact Nat.lt_succ_of_le (Nat.le_trans (Nat.le_of_lt (h.lt i hi)) hj)
  · rw [List.mem_singleton.mp hi]
    exact Nat.lt_succ_self _

/-- The run goes on with the frame that follows. -/
theorem next (h : LastRun js first) (hj : upcoming js = j) : LastRun (js ++ [j]) first := by
  have hu := upcoming_concat js j
  refine ⟨?_, fun i hi => hu ▸ h.lt_succ (Nat.le_of_eq hj) hi, fun i hf hi => ?_, fun i hi hm => ?_⟩
  · have := h.le
    omega
  · rw [hu] at hi
    rcases Nat.lt_succ_iff_lt_or_eq.mp hi with hi | hi
    · exact List.mem_append_left _ (h.received i hf (hj ▸ hi))
    · exact List.mem_append_right _ (List.mem_singleton.mpr (Fin.ext hi))
  · rcases List.mem_append.mp hm with hm | hm
    · exact h.lost i hi hm
    · have := h.le
      rw [List.mem_singleton.mp hm] at hi
      omega

/-- A later frame begins a run. -/
theorem skip (h : LastRun js first) (hj : upcoming js < j) : LastRun (js ++ [j]) j := by
  have hu := upcoming_concat js j
  refine ⟨?_, fun i hi => hu ▸ h.lt_succ (Nat.le_of_lt hj) hi, fun i hf hi => ?_, fun i hi hm => ?_⟩
  · omega
  · rw [hu] at hi
    exact List.mem_append_right _ (List.mem_singleton.mpr (Fin.ext (by omega)))
  · rcases List.mem_append.mp hm with hm | hm
    · have := h.lt i hm
      omega
    · rw [List.mem_singleton.mp hm] at hi
      omega

end LastRun

/-- The first frame of the last run, when `j` is received. -/
def runStart (js : List (Fin m)) (first : Nat) (j : Fin m) : Nat :=
  if upcoming js = j then first else j

theorem LastRun.concat (h : LastRun js first) (hj : upcoming js ≤ j) :
    LastRun (js ++ [j]) (runStart js first j) := by
  rw [runStart]
  split
  · exact h.next ‹_›
  · exact h.skip (Nat.lt_of_le_of_ne hj ‹_›)

theorem LastRun.le_runStart (h : LastRun js first) (hj : upcoming js ≤ j) :
    first ≤ runStart js first j := by
  rw [runStart]
  split
  · exact Nat.le_refl _
  · exact Nat.le_trans h.le hj

theorem LastRun.runStart_le (h : LastRun js first) (hj : upcoming js ≤ j) :
    runStart js first j ≤ j := by
  rw [runStart]
  split
  · exact Nat.le_trans h.le hj
  · exact Nat.le_refl _

/-- Two frames received one after the other have fewer than `modulus` lost ones between them. -/
def FewLost (modulus : Nat) (i j : Fin m) : Prop := i < j ∧ j.val - i.val - 1 < modulus

theorem upcoming_le_of_fewLost {modulus : Nat} (h : (js ++ [j]).IsChain (FewLost modulus)) :
    upcoming js ≤ j ∧ ∀ i ∈ js.getLast?, FewLost modulus i j := by
  have hlast : ∀ i ∈ js.getLast?, FewLost modulus i j := fun i hi =>
    (List.isChain_append.mp h).2.2 i hi j rfl
  refine ⟨?_, hlast⟩
  rw [upcoming]
  cases hl : js.getLast? with
  | none => exact Nat.zero_le _
  | some i => exact (hlast i hl).1

end Received

/-! ## Packets and frames -/

section Frames

variable {F : Type} [ChannelFrame F] {sent : List F} {js : List (Fin sent.length)}
  {j : Fin sent.length} {q : Bytes × Nat} {first : Nat}

/-- Every frame is received from the one that holds the first byte of a packet to the one that holds
its last. -/
def WhollyReceived (sent : List F) (js : List (Fin sent.length)) (q : Bytes × Nat) : Prop :=
  ∀ j : Fin sent.length, holder sent q.2 ≤ j → j ≤ holder sent (q.2 + q.1.length - 1) → j ∈ js

instance (js : List (Fin sent.length)) : DecidablePred (WhollyReceived sent js) :=
  fun q => inferInstanceAs (Decidable (∀ j : Fin sent.length, holder sent q.2 ≤ j →
    j ≤ holder sent (q.2 + q.1.length - 1) → j ∈ js))

/-- The wholly received packets of which the frame `j` holds the end. -/
def endingIn (packets : List Bytes) (sent : List F) (js : List (Fin sent.length))
    (j : Fin sent.length) : List (Bytes × Nat) :=
  (located packets).filter fun q => WhollyReceived sent (js ++ [j]) q ∧
    offset sent j < q.2 + q.1.length

/-- A frame that holds some of a packet is lost: a later one has been received, and this one has
not. -/
def Torn (sent : List F) (js : List (Fin sent.length)) (q : Bytes × Nat) : Prop :=
  ∃ k : Fin sent.length, k < upcoming js ∧ k ∉ js ∧ holder sent q.2 ≤ k ∧
    k ≤ holder sent (q.2 + q.1.length - 1)

theorem WhollyReceived.concat (h : WhollyReceived sent js q) (j : Fin sent.length) :
    WhollyReceived sent (js ++ [j]) q :=
  fun k hk hk' => List.mem_append_left _ (h k hk hk')

theorem Torn.concat (h : Torn sent js q) (hj : upcoming js ≤ j) : Torn sent (js ++ [j]) q := by
  obtain ⟨k, hk, hmem, hrest⟩ := h
  refine ⟨k, ?_, fun hm => ?_, hrest⟩
  · rw [upcoming_concat]
    omega
  · rcases List.mem_append.mp hm with hm | hm
    · exact hmem hm
    · rw [List.mem_singleton.mp hm] at hk
      omega

/-- A packet that is wholly received has ended. -/
theorem WhollyReceived.end_le (h : WhollyReceived sent js q) (hr : LastRun js first)
    (hpos : 0 < q.1.length) (hend : q.2 + q.1.length ≤ offset sent sent.length) :
    q.2 + q.1.length ≤ offset sent (upcoming js) := by
  have hlen : 0 < sent.length := Nat.pos_of_ne_zero fun h0 => by
    rw [h0, offset_zero] at hend
    omega
  have hlast : holder sent (q.2 + q.1.length - 1) < sent.length := by
    have := holder_le_iff (k := q.2 + q.1.length - 1) ⟨sent.length - 1, Nat.sub_one_lt_of_lt hlen⟩
    dsimp only at this
    rw [Nat.sub_add_cancel hlen] at this
    omega
  have hmem : ⟨_, hlast⟩ ∈ js := by
    refine h ⟨_, hlast⟩ ?_ (Nat.le_refl _)
    refine (holder_le_iff ⟨_, hlast⟩).mpr ?_
    have := (holder_le_iff (k := q.2 + q.1.length - 1) ⟨_, hlast⟩).mp (Nat.le_refl _)
    omega
  have hlt := (holder_le_iff (k := q.2 + q.1.length - 1) ⟨_, hlast⟩).mp (Nat.le_refl _)
  have := offset_mono sent (Nat.succ_le_of_lt (hr.lt _ hmem))
  dsimp only [Nat.succ_eq_add_one] at this hlt
  omega

/-- A packet that ends in the last frame is wholly received if it starts in the last run. -/
theorem whollyReceived_iff_of_lt (hr : LastRun (js ++ [j]) first) (hpos : 0 < q.1.length)
    (hend : q.2 + q.1.length ≤ offset sent sent.length) (hlt : offset sent j < q.2 + q.1.length) :
    WhollyReceived sent (js ++ [j]) q ↔
      offset sent first ≤ q.2 ∧ q.2 + q.1.length ≤ offset sent (j + 1) := by
  have hu := upcoming_concat js j
  constructor
  · intro h
    refine ⟨Nat.not_lt.mp fun hs => ?_, hu ▸ h.end_le hr hpos hend⟩
    -- the frame before the run is lost and holds some of the packet
    have hfirst : first ≠ 0 := fun h0 => by
      rw [h0, offset_zero] at hs
      exact Nat.not_lt_zero _ hs
    have hle : first - 1 ≤ j := by
      have := hr.le
      omega
    let k : Fin sent.length := ⟨first - 1, Nat.lt_of_le_of_lt hle j.isLt⟩
    have hk : k + 1 = first := Nat.sub_add_cancel (Nat.pos_of_ne_zero hfirst)
    refine hr.lost k hk (h k ?_ ?_)
    · rw [holder_le_iff, hk]
      exact hs
    · rw [le_holder_iff]
      have : offset sent k ≤ offset sent j := offset_mono sent hle
      omega
  · rintro ⟨hs, he⟩ k hk hk'
    rw [holder_le_iff] at hk
    rw [le_holder_iff] at hk'
    have hf := lt_of_offset_lt sent (Nat.lt_of_le_of_lt hs hk)
    have hl := lt_of_offset_lt sent (show offset sent k < offset sent (j + 1) by omega)
    exact hr.received k (Nat.le_of_lt_succ hf) (hu ▸ hl)

/-- The packets received before a frame are those received with it that have ended. -/
theorem whollyReceived_iff_of_le (hr : LastRun js first) (hj : upcoming js ≤ j)
    (hpos : 0 < q.1.length) (hend : q.2 + q.1.length ≤ offset sent sent.length) :
    WhollyReceived sent js q ↔
      WhollyReceived sent (js ++ [j]) q ∧ q.2 + q.1.length ≤ offset sent j := by
  constructor
  · intro h
    refine ⟨h.concat j, ?_⟩
    exact Nat.le_trans (h.end_le hr hpos hend) (offset_mono sent hj)
  · rintro ⟨h, he⟩ k hk hk'
    rcases List.mem_append.mp (h k hk hk') with hm | hm
    · exact hm
    · rw [List.mem_singleton.mp hm, le_holder_iff] at hk'
      omega

/-- What is handed out of a packet: the whole of it if it is wholly received, and else a beginning
that has the header, and that is marked as cut off. -/
def HandedOut (sent : List F) (js : List (Fin sent.length)) (q : Bytes × Nat) (u : Extracted) :
    Prop :=
  if u.complete then WhollyReceived sent js q ∧ u.bytes = q.1
  else Torn sent js q ∧ SpacePacketHeader.length ≤ u.bytes.length ∧ u.bytes <+: q.1 ∧ u.bytes ≠ q.1

theorem HandedOut.concat {u : Extracted} (h : HandedOut sent js q u) (hj : upcoming js ≤ j) :
    HandedOut sent (js ++ [j]) q u := by
  rw [HandedOut] at h ⊢
  split at h
  · rw [if_pos ‹_›]
    exact ⟨h.1.concat j, h.2⟩
  · rw [if_neg ‹_›]
    exact ⟨h.1.concat hj, h.2⟩

/-- The packets that something is handed out of, in order and each once. -/
structure Delivery (packets : List Bytes) (sent : List F) (js : List (Fin sent.length))
    (qs : List (Bytes × Nat)) (us : List Extracted) : Prop where
  mem : ∀ q ∈ qs, q ∈ located packets
  ordered : qs.Pairwise fun q r => q.2 < r.2
  handedOut : List.Forall₂ (HandedOut sent js) qs us

namespace Delivery

variable {packets : List Bytes} {qs rs : List (Bytes × Nat)} {us vs : List Extracted}

theorem nil : Delivery packets sent js [] [] :=
  ⟨fun _ h => absurd h List.not_mem_nil, .nil, .nil⟩

theorem singleton {u : Extracted} (hq : q ∈ located packets) (h : HandedOut sent js q u) :
    Delivery packets sent js [q] [u] :=
  ⟨fun _ hr => List.mem_singleton.mp hr ▸ hq, List.pairwise_singleton _ _, .cons h .nil⟩

theorem concat (h : Delivery packets sent js qs us) (hj : upcoming js ≤ j) :
    Delivery packets sent (js ++ [j]) qs us :=
  { h with handedOut := h.handedOut.imp fun _ _ hu => hu.concat hj }

theorem append (h : Delivery packets sent js qs us) (h' : Delivery packets sent js rs vs)
    (hlt : ∀ q ∈ qs, ∀ r ∈ rs, q.2 < r.2) :
    Delivery packets sent js (qs ++ rs) (us ++ vs) where
  mem q hq := (List.mem_append.mp hq).elim (h.mem q) (h'.mem q)
  ordered := List.pairwise_append.mpr ⟨h.ordered, h'.ordered, hlt⟩
  handedOut := List.rel_append h.handedOut h'.handedOut

/-- Packets that end in a frame, handed out as they are. -/
theorem endingIn (hne : ∀ p ∈ packets, p ≠ []) :
    Delivery packets sent (js ++ [j]) (endingIn packets sent js j)
      ((endingIn packets sent js j).map fun q => { bytes := q.1, complete := true }) where
  mem q hq := (List.mem_filter.mp hq).1
  ordered := (located_ordered hne).filter _
  handedOut := by
    rw [List.forall₂_map_right_iff, List.forall₂_same]
    intro q hq
    exact ⟨(of_decide_eq_true (List.mem_filter.mp hq).2).1, rfl⟩

theorem sublist (h : Delivery packets sent js qs us) (hne : ∀ p ∈ packets, p ≠ []) :
    qs.Sublist (located packets) :=
  sublist_located hne h.mem h.ordered

end Delivery

end Frames

end SpaceLink
