import SpaceLink.Clcw
import SpaceLink.Proofs.Fields
import SpaceLink.Proofs.Faults

/-!
# Reading back and writing again control words

Unlike the headers, a control word is not written if one of its numbers is too large for its field
(`Clcw.encode_reportsFirst`). What is written is the word itself, and what is read is written again
as it was, but for the spare bits.
-/

namespace SpaceLink.Clcw

/-- Every number fits into its field. -/
structure Fits (w : Clcw) : Prop where
  version : w.version ≤ 3
  statusField : w.statusField ≤ 7
  copInEffect : w.copInEffect ≤ 3
  vcid : w.vcid ≤ 63
  farmBCounter : w.farmBCounter ≤ 3

/-- The word with each number reduced to the width of its field. -/
def reduced (w : Clcw) : Clcw :=
  { w with
    version := w.version % 2 ^ 2
    statusField := w.statusField % 2 ^ 3
    copInEffect := w.copInEffect % 2 ^ 2
    vcid := w.vcid % 2 ^ 6
    farmBCounter := w.farmBCounter % 2 ^ 2 }

theorem Fits.reduced_eq {w : Clcw} (hf : w.Fits) : w.reduced = w := by
  have hversion : w.version % 2 ^ 2 = w.version := Nat.mod_eq_of_lt (Nat.lt_succ_of_le hf.version)
  have hstatus : w.statusField % 2 ^ 3 = w.statusField :=
    Nat.mod_eq_of_lt (Nat.lt_succ_of_le hf.statusField)
  have hcop : w.copInEffect % 2 ^ 2 = w.copInEffect :=
    Nat.mod_eq_of_lt (Nat.lt_succ_of_le hf.copInEffect)
  have hvcid : w.vcid % 2 ^ 6 = w.vcid := Nat.mod_eq_of_lt (Nat.lt_succ_of_le hf.vcid)
  have hcounter : w.farmBCounter % 2 ^ 2 = w.farmBCounter :=
    Nat.mod_eq_of_lt (Nat.lt_succ_of_le hf.farmBCounter)
  rw [reduced, hversion, hstatus, hcop, hvcid, hcounter]

/-! ## Writing -/

/-- What may be too large for its field, in the order in which it is looked for. -/
def faults (w : Clcw) : List Fault :=
  [⟨3 < w.version, .outOfRange .clcwVersion w.version 3⟩,
    ⟨7 < w.statusField, .outOfRange .clcwStatusField w.statusField 7⟩,
    ⟨3 < w.copInEffect, .outOfRange .clcwCopInEffect w.copInEffect 3⟩,
    ⟨63 < w.vcid, .outOfRange .clcwVcid w.vcid 63⟩,
    ⟨3 < w.farmBCounter, .outOfRange .clcwFarmBCounter w.farmBCounter 3⟩]

theorem encode_reportsFirst (w : Clcw) : ReportsFirst w.encode w.faults := by
  rw [encode, faults]
  refine .bind_one (checkRange_reportsFirst _ _ _) fun _ _ => ?_
  refine .bind_one (checkRange_reportsFirst _ _ _) fun _ _ => ?_
  refine .bind_one (checkRange_reportsFirst _ _ _) fun _ _ => ?_
  refine .bind_one (checkRange_reportsFirst _ _ _) fun _ _ => ?_
  exact .bind_one (checkRange_reportsFirst _ _ _) fun _ _ => .of_ok rfl

/-- What is written of the word if its numbers fit. -/
def bytes (w : Clcw) : Bytes :=
  [(pack [(1, 0), (2, w.version), (3, w.statusField), (2, w.copInEffect)]).toUInt8,
    (pack [(6, w.vcid), (2, 0)]).toUInt8,
    (pack [(1, w.noRfAvailable.toNat), (1, w.noBitLock.toNat), (1, w.lockout.toNat),
      (1, w.wait.toNat), (1, w.retransmit.toNat), (2, w.farmBCounter),
      (1, w.reportType.toNat)]).toUInt8,
    w.reportValue]

theorem encode_eq_ok_iff {w : Clcw} {d : Bytes} : w.encode = .ok d ↔ w.Fits ∧ w.bytes = d := by
  constructor
  · intro h
    obtain ⟨⟨⟩, hversion, h⟩ := bind_eq_ok_iff.mp h
    obtain ⟨⟨⟩, hstatus, h⟩ := bind_eq_ok_iff.mp h
    obtain ⟨⟨⟩, hcop, h⟩ := bind_eq_ok_iff.mp h
    obtain ⟨⟨⟩, hvcid, h⟩ := bind_eq_ok_iff.mp h
    obtain ⟨⟨⟩, hcounter, h⟩ := bind_eq_ok_iff.mp h
    rw [checkRange_eq_ok_iff] at hversion hstatus hcop hvcid hcounter
    exact ⟨⟨hversion, hstatus, hcop, hvcid, hcounter⟩, Except.ok.inj h⟩
  · rintro ⟨⟨hversion, hstatus, hcop, hvcid, hcounter⟩, rfl⟩
    rw [encode, checkRange_eq_ok_iff.mpr hversion, ok_bind, checkRange_eq_ok_iff.mpr hstatus,
      ok_bind, checkRange_eq_ok_iff.mpr hcop, ok_bind, checkRange_eq_ok_iff.mpr hvcid, ok_bind,
      checkRange_eq_ok_iff.mpr hcounter, ok_bind]
    rfl

theorem decode_bytes (w : Clcw) (rest : Bytes) : decode (w.bytes ++ rest) = some w.reduced := by
  have hfirst := fieldsOf_pack [(1, 0), (2, w.version), (3, w.statusField), (2, w.copInEffect)]
  have hsecond := fieldsOf_pack [(6, w.vcid), (2, 0)]
  have hflags := fieldsOf_pack [(1, w.noRfAvailable.toNat), (1, w.noBitLock.toNat),
    (1, w.lockout.toNat), (1, w.wait.toNat), (1, w.retransmit.toNat), (2, w.farmBCounter),
    (1, w.reportType.toNat)]
  simp only [fieldsOf, List.map, List.sum_cons, List.sum_nil, List.cons.injEq, Prod.mk.injEq,
    true_and, and_true, Nat.reduceAdd] at hfirst hsecond hflags
  obtain ⟨hzero, hversion, hstatus, hcop⟩ := hfirst
  have hreport := flag_eq_of_bits (b := false) hzero
  obtain ⟨hrf, hlock, hlockout, hwait, hretransmit, hcounter, htype⟩ := hflags
  rw [bytes]
  show (if _ then none else some _) = _
  rw [toNat_pack rfl, toNat_pack rfl, toNat_pack rfl,
    if_neg (ne_true_of_eq_false hreport), hversion, hstatus, hcop, hsecond.1,
    flag_eq_of_bits hrf, flag_eq_of_bits hlock, flag_eq_of_bits hlockout, flag_eq_of_bits hwait,
    flag_eq_of_bits hretransmit, hcounter, flag_eq_of_bits htype]
  rfl

/-- A word that is written is read back, whatever follows. -/
theorem decode_of_encode {w : Clcw} {d : Bytes} (h : w.encode = .ok d) (rest : Bytes) :
    w.reduced = w ∧ decode (d ++ rest) = some w.reduced := by
  obtain ⟨hf, rfl⟩ := encode_eq_ok_iff.mp h
  exact ⟨hf.reduced_eq, w.decode_bytes rest⟩

/-! ## Reading -/

/-- All that four bytes may lack is the bit that tells a control word. -/
theorem decode_isSome_iff {d : Bytes} :
    (decode d).isSome ↔ ocfLength ≤ d.length ∧ d.octet 0 < 128 := by
  match d with
  | [] | [_] | [_, _] | [_, _, _] => simp [decode, ocfLength]
  | b0 :: b1 :: b2 :: b3 :: rest =>
    have hb := b0.toNat_lt
    have hreport : flag b0.toNat 7 = true ↔ 128 ≤ b0.toNat := by
      rw [flag_eq, decide_eq_true_iff]
      omega
    simp only [decode, hreport, Bytes.octet, List.getD_cons_zero, ocfLength, List.length_cons]
    split
    · simpa
    · simp
      omega

theorem fits_of_decode {d : Bytes} {w : Clcw} (hd : decode d = some w) : w.Fits := by
  unfold decode at hd
  split at hd
  · split at hd
    · cases hd
    · cases hd
      exact ⟨Nat.le_of_lt_succ (bits_lt _ _ _), Nat.le_of_lt_succ (bits_lt _ _ _),
        Nat.le_of_lt_succ (bits_lt _ _ _), Nat.le_of_lt_succ (bits_lt _ _ _),
        Nat.le_of_lt_succ (bits_lt _ _ _)⟩
  · cases hd

/-- A word without spare bits set has the bytes that it was read from. -/
theorem bytes_of_decode {d : Bytes} {w : Clcw} (hd : decode d = some w)
    (hspare : ∀ b ∈ d[1]?, bits b.toNat 0 2 = 0) : w.bytes = d.take ocfLength := by
  unfold decode at hd
  split at hd
  · rename_i b0 b1 b2 b3 rest
    split at hd
    · cases hd
    · rename_i hreport
      cases hd
      have hzero : bits b0.toNat 7 1 = 0 := by
        rw [← toNat_flag_eq_bits, eq_false_of_ne_true hreport]
        rfl
      have hfirst := toUInt8_pack_fieldsOf [1, 2, 3, 2] rfl b0
      have hsecond := toUInt8_pack_fieldsOf [6, 2] rfl b1
      have hflags := toUInt8_pack_fieldsOf [1, 1, 1, 1, 1, 2, 1] rfl b2
      simp only [fieldsOf, List.sum_cons, List.sum_nil, Nat.reduceAdd, hzero, hspare b1 rfl]
        at hfirst hsecond hflags
      simp only [bytes, toNat_flag_eq_bits, hfirst, hsecond, hflags]
      rfl
  · cases hd

/-- The spare bits are not read. -/
theorem decode_clear (d : Bytes) : decode (d.clear 1 0x03) = decode d := by
  match d with
  | [] | [_] | [_, _] | [_, _, _] => rfl
  | b0 :: b1 :: b2 :: b3 :: rest =>
    have hmask : (b1 &&& ~~~0x03).toNat = b1.toNat &&& 0xfc := UInt8.toNat_and _ _
    have hvcid : bits (b1.toNat &&& 0xfc) 2 6 = bits b1.toNat 2 6 := bits_and_of_full rfl
    show decode (b0 :: (b1 &&& ~~~0x03) :: b2 :: b3 :: rest) = _
    simp only [decode, hmask, hvcid]

/-- A word that is read is written again as it was, but for its spare bits. -/
theorem encode_of_decode {d : Bytes} {w : Clcw} (hd : decode d = some w) :
    w.encode = .ok (Bytes.clear 1 0x03 (d.take ocfLength)) := by
  rw [← Bytes.take_clear, encode_eq_ok_iff]
  exact ⟨fits_of_decode hd, bytes_of_decode ((decode_clear d).trans hd) (Bytes.bits_clear rfl)⟩

end SpaceLink.Clcw
