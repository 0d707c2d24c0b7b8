import Mathlib.Data.List.GetD
import SpaceLink.Proofs.FrameBytes
import SpaceLink.Proofs.Steps

/-!
# The first fault of a frame

A decoder makes its checks one after the other and stops at the first that fails. Its faults are
listed in this order, each with the condition on the bytes under which it applies; `ReportsFirst`
says that the outcome is the error of the first that applies, and a frame if none does. Checks in
sequence have the faults of both (`ReportsFirst.bind`), so that the faults of a decoder are those of
its checks.
-/

namespace SpaceLink

/-- What may be wrong, whether it is, and how it is reported. -/
structure Fault where
  applies : Bool
  error : Error

def firstFault? (faults : List Fault) : Option Error := (faults.find? (·.applies)).map (·.error)

theorem firstFault?_cons (fault : Fault) (faults : List Fault) :
    firstFault? (fault :: faults) =
      if fault.applies then some fault.error else firstFault? faults := by
  rw [firstFault?, List.find?_cons]
  cases fault.applies <;> rfl

theorem firstFault?_append (faults faults' : List Fault) :
    firstFault? (faults ++ faults') = (firstFault? faults).or (firstFault? faults') := by
  rw [firstFault?, List.find?_append, Option.map_or]
  rfl

theorem firstFault?_eq_none_iff {faults : List Fault} :
    firstFault? faults = none ↔ ∀ fault ∈ faults, fault.applies = false := by
  rw [firstFault?, Option.map_eq_none_iff, List.find?_eq_none]
  exact forall₂_congr fun _ _ => iff_of_eq (Bool.not_eq_true _)

/-- The outcome is the error of the first fault that applies, or a result if there is none. -/
structure ReportsFirst {α : Type} (outcome : Except Error α) (faults : List Fault) : Prop where
  error : ∀ e, outcome = .error e ↔ firstFault? faults = some e
  accepts : (∃ a, outcome = .ok a) ↔ ∀ fault ∈ faults, fault.applies = false

namespace ReportsFirst

variable {α β : Type} {faults faults' : List Fault}

theorem of_ok {a : α} (h : firstFault? faults = none) : ReportsFirst (.ok a) faults := by
  refine ⟨fun e => ?_, ⟨fun _ => firstFault?_eq_none_iff.mp h, fun _ => ⟨a, rfl⟩⟩⟩
  rw [h]
  exact ⟨nofun, nofun⟩

theorem of_error {e : Error} (h : firstFault? faults = some e) :
    ReportsFirst (.error e : Except Error α) faults := by
  refine ⟨fun e' => ?_, ?_⟩
  · rw [h, Except.error.injEq, Option.some.injEq]
  · rw [← firstFault?_eq_none_iff, h]
    exact ⟨nofun, nofun⟩

theorem congr {x : Except Error α} (hx : ReportsFirst x faults)
    (h : firstFault? faults' = firstFault? faults) : ReportsFirst x faults' := by
  refine ⟨fun e => h ▸ hx.error e, hx.accepts.trans ?_⟩
  rw [← firstFault?_eq_none_iff, ← firstFault?_eq_none_iff, h]

theorem bind {x : Except Error α} {f : α → Except Error β} (hx : ReportsFirst x faults)
    (hf : ∀ a, x = .ok a → ReportsFirst (f a) faults') :
    ReportsFirst (x >>= f) (faults ++ faults') := by
  cases x with
  | error e =>
    refine of_error ?_
    rw [firstFault?_append, (hx.error e).mp rfl, Option.some_or]
  | ok a =>
    have hnone := firstFault?_eq_none_iff.mpr (hx.accepts.mp ⟨a, rfl⟩)
    have hfirst : firstFault? (faults ++ faults') = firstFault? faults' := by
      rw [firstFault?_append, hnone, Option.none_or]
    exact (hf a rfl).congr hfirst

/-- A check with a single fault. -/
theorem bind_one {x : Except Error α} {f : α → Except Error β} {fault : Fault}
    (hx : ReportsFirst x [fault]) (hf : ∀ a, x = .ok a → ReportsFirst (f a) faults) :
    ReportsFirst (x >>= f) (fault :: faults) :=
  hx.bind hf

theorem cons {x : Except Error α} {fault : Fault} (h : fault.applies = false)
    (hx : ReportsFirst x faults) : ReportsFirst x (fault :: faults) := by
  refine hx.congr ?_
  rw [firstFault?_cons, h]
  rfl

theorem of_applies (fault : Fault) (h : fault.applies = true) :
    ReportsFirst (.error fault.error : Except Error α) (fault :: faults) := by
  refine of_error ?_
  rw [firstFault?_cons, if_pos h]

theorem ite {p : Prop} [Decidable p] {x : Except Error α} {e : Error} {applies : Bool}
    (happlies : applies = true ↔ p) (hx : ¬p → ReportsFirst x faults) :
    ReportsFirst (if p then .error e else x) (⟨applies, e⟩ :: faults) := by
  cases applies with
  | true =>
    rw [if_pos (happlies.mp rfl)]
    exact of_applies ⟨true, e⟩ rfl
  | false =>
    have hp : ¬p := fun hp => Bool.noConfusion (happlies.mpr hp)
    rw [if_neg hp]
    exact cons rfl (hx hp)

theorem map {x : Except Error α} (f : α → β) (h : ReportsFirst x faults) :
    ReportsFirst (x.map f) faults := by
  cases x with
  | error e => exact .of_error ((h.error e).mp rfl)
  | ok a => exact .of_ok (firstFault?_eq_none_iff.mpr (h.accepts.mp ⟨a, rfl⟩))

end ReportsFirst

theorem checkRange_reportsFirst (field : Field) (value max : Nat) :
    ReportsFirst (checkRange field value max) [⟨max < value, .outOfRange field value max⟩] :=
  .ite decide_eq_true_iff fun _ => .of_ok rfl

/-! ## Checks that all kinds of frame have -/

/-- A byte as a number, if the string has it. -/
def Bytes.octet (d : Bytes) (i : Nat) : Nat := (d.getD i 0).toNat

/-- Two bytes as a number. -/
theorem Bytes.toNatBE_slice_two {d : Bytes} {start : Nat} (h : start + 2 ≤ d.length) :
    toNatBE (slice start 2 d) = d.octet start * 256 + d.octet (start + 1) := by
  have hslice : slice start 2 d = [d[start], d[start + 1]] := by
    rw [slice, List.drop_eq_getElem_cons (by omega), List.drop_eq_getElem_cons (by omega)]
    rfl
  rw [hslice, octet, octet, List.getD_eq_getElem d 0 (by omega),
    List.getD_eq_getElem d 0 (by omega)]
  simp only [toNatBE, List.foldl, Nat.zero_mul, Nat.zero_add]

/-- The bytes are fewer than they must be. -/
def tooShort (d : Bytes) (minimum : Nat) : Fault :=
  ⟨d.length < minimum, .notEnoughData d.length minimum⟩

/-- There is nothing, not the right kind of frame, or not enough for the primary header. -/
def versionFaults (d : Bytes) (version minimum : Nat) : List Fault :=
  [⟨d.length = 0, .notEnoughData 0 minimum⟩,
    ⟨d.octet 0 / 64 ≠ version, .version version (d.octet 0 / 64)⟩,
    tooShort d minimum]

/-- The last two bytes are not the check of the bytes before them. -/
def fecfFault (d : Bytes) (strict fecfPresent : Bool) : Fault :=
  let stored := Bytes.toNatBE (d.drop (d.length - 2))
  let computed := crc16 (d.take (d.length - 2))
  ⟨strict && fecfPresent && stored != computed, .fecf stored computed⟩

theorem checkVersion_reportsFirst (d : Bytes) (version minimum : Nat) :
    ReportsFirst (checkVersion d version minimum) (versionFaults d version minimum) := by
  cases d with
  | nil => exact .of_error rfl
  | cons b d =>
    have hversion : bits b.toNat 6 2 = Bytes.octet (b :: d) 0 / 64 := by
      have hb := b.toNat_lt
      rw [bits_eq]
      show b.toNat / 2 ^ 6 % 2 ^ 2 = b.toNat / 64
      omega
    rw [checkVersion, hversion]
    refine .cons rfl (.ite decide_eq_true_iff fun _ => ?_)
    exact .ite decide_eq_true_iff fun _ => .of_ok rfl

theorem le_length_of_checkVersion {d : Bytes} {version minimum : Nat}
    (h : checkVersion d version minimum = .ok ()) : minimum ≤ d.length := by
  have hshort := (checkVersion_reportsFirst d version minimum).accepts.mp ⟨_, h⟩
    (tooShort d minimum) (by simp [versionFaults])
  exact Nat.not_lt.mp (of_decide_eq_false hshort)

namespace FrameBytes

/-- The number at the start of the data field. -/
theorem toNatBE_take_dataField {f : FrameBytes} (h : 2 ≤ f.dataField.length) :
    Bytes.toNatBE (f.dataField.take 2) =
      f.bytes.octet f.dataFieldStart * 256 + f.bytes.octet (f.dataFieldStart + 1) := by
  rw [length_dataField] at h
  have hend : f.dataFieldStart + 2 ≤ f.bytes.length := by
    have hlen := f.fecfStart_add_fecf
    rw [fecfStart, ocfStart, trailerStart] at hlen
    omega
  rw [← Bytes.toNatBE_slice_two hend, dataField, Bytes.slice, List.take_take, Nat.min_eq_left h]
  rfl

theorem ofBytes_reportsFirst {d : Bytes} {o : Overhead} {minimum : Nat} (h : o.total = minimum) :
    ReportsFirst (ofBytes d o) [tooShort d minimum] := by
  subst h
  rw [ofBytes]
  split
  · exact .cons (decide_eq_false (Nat.not_lt.mpr ‹_›)) (.of_ok rfl)
  · exact .of_applies (tooShort d o.total) (decide_eq_true (Nat.not_le.mp ‹_›))

theorem checkFecf_reportsFirst {f : FrameBytes} {d : Bytes} {fecfPresent : Bool}
    (hbytes : f.bytes = d) (hpresent : f.overhead.fecfPresent = fecfPresent) (strict : Bool) :
    ReportsFirst (f.checkFecf strict) [fecfFault d strict fecfPresent] := by
  subst hbytes hpresent
  rw [checkFecf, fecf?_eq]
  cases hp : f.overhead.fecfPresent with
  | false =>
    refine .cons ?_ (.of_ok rfl)
    rw [fecfFault, Bool.and_false, Bool.false_and]
  | true =>
    rw [if_pos rfl, computedFecf, fecfBytes_eq hp, fecfStart_eq hp, fecfFault, Bool.and_true]
    exact .ite Iff.rfl fun _ => .of_ok rfl

end FrameBytes

end SpaceLink
