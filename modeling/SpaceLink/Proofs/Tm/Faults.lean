import SpaceLink.Proofs.Faults
import SpaceLink.Proofs.Tm.Frame

/-! # The faults of TM frames -/

namespace SpaceLink.Tm

/-- The number of bytes of everything but the data field. -/
def minimumLength (d : Bytes) (c : Config) : Nat :=
  6 + (if 128 ≤ d.octet 4 then d.octet 6 % 64 + 1 else 0) + c.securityHeaderLength +
    c.securityTrailerLength + (if d.octet 1 % 2 = 1 then 4 else 0) + if c.fecfPresent then 2 else 0

/-- What may be wrong with a TM frame, in the order in which it is looked for. -/
def faults (d : Bytes) (c : Config) : List Fault :=
  let pointer := d.octet 4 % 8 * 256 + d.octet 5
  let room := d.length - minimumLength d c
  versionFaults d 0 6 ++
    [⟨128 ≤ d.octet 4 && d.length < 7, .notEnoughData d.length 7⟩,
      tooShort d (minimumLength d c),
      ⟨d.octet 4 / 64 % 2 = 0 && pointer ≠ 0x7fe && pointer ≠ 0x7ff && room ≤ pointer,
        .pointer .firstHeaderPointer pointer room⟩,
      fecfFault d c.strict c.fecfPresent]

/-- The header fields that matter for decoding, by the bytes that have them. -/
theorem Header.exists_decode {d : Bytes} (h : 6 ≤ d.length) :
    ∃ header, Header.decode d = some header ∧ header.ocfPresent = decide (d.octet 1 % 2 = 1) ∧
      header.secondaryHeaderPresent = decide (128 ≤ d.octet 4) ∧
      header.sync = decide (d.octet 4 / 64 % 2 = 1) ∧
      header.firstHeaderPointer = d.octet 4 % 8 * 256 + d.octet 5 := by
  match d, h with
  | b0 :: b1 :: mc :: vc :: b4 :: b5 :: rest, _ =>
    have h4 := b4.toNat_lt
    have h5 := b5.toNat_lt
    refine ⟨_, rfl, ?_⟩
    simp only [flag_eq, bits_eq, Bytes.toNatBE, List.foldl, Bytes.octet, List.getD_cons_succ,
      List.getD_cons_zero, decide_eq_decide]
    refine ⟨?_, ?_, ?_, ?_⟩ <;> omega

theorem secondaryHeaderLength_eq {h : Header} {d : Bytes}
    (hpresent : h.secondaryHeaderPresent = decide (128 ≤ d.octet 4)) :
    secondaryHeaderLength h d =
      if 128 ≤ d.octet 4 ∧ d.length < 7 then .error (.notEnoughData d.length 7)
      else .ok (if 128 ≤ d.octet 4 then d.octet 6 % 64 + 1 else 0) := by
  rw [secondaryHeaderLength, hpresent]
  by_cases hflag : 128 ≤ d.octet 4
  · rw [decide_eq_true hflag, if_pos rfl, if_pos hflag]
    cases hid : d[headerLength]? with
    | none =>
      have hlen : d.length ≤ headerLength := List.getElem?_eq_none_iff.mp hid
      rw [if_pos ⟨hflag, Nat.lt_succ_of_le hlen⟩]
      rfl
    | some id =>
      obtain ⟨hlen, -⟩ := List.getElem?_eq_some_iff.mp hid
      have hoctet : d.octet 6 = id.toNat := by
        rw [Bytes.octet, List.getD_eq_getElem?_getD]
        exact congrArg _ (congrArg (·.getD 0) hid)
      rw [if_neg fun h => Nat.not_lt.mpr (Nat.le_of_lt_succ h.2) hlen, hoctet]
      exact congrArg (fun n => Except.ok (n + 1)) (bits_zero _ _)
  · rw [decide_eq_false hflag, if_neg Bool.false_ne_true, if_neg hflag, if_neg fun h => hflag h.1]

theorem Config.total_overhead (c : Config) (secondary : Nat) (ocfPresent : Bool) :
    (c.overhead secondary ocfPresent).total = 6 + secondary + c.securityHeaderLength +
      c.securityTrailerLength + (if ocfPresent then 4 else 0) + if c.fecfPresent then 2 else 0 := by
  show 6 + secondary + c.securityHeaderLength + (c.securityTrailerLength +
    (if ocfPresent then 4 else 0) + if c.fecfPresent then 2 else 0) = _
  omega

/-- The lengths that the header announces are those in its bytes. -/
theorem Config.total_of_header {h : Header} {d : Bytes} (c : Config) {secondary : Nat}
    (hocf : h.ocfPresent = decide (d.octet 1 % 2 = 1))
    (hpresent : h.secondaryHeaderPresent = decide (128 ≤ d.octet 4))
    (hsecondary : secondaryHeaderLength h d = .ok secondary) :
    (c.overhead secondary h.ocfPresent).total = minimumLength d c := by
  rw [secondaryHeaderLength_eq hpresent] at hsecondary
  split at hsecondary
  · cases hsecondary
  · cases hsecondary
    simp only [Config.total_overhead, hocf, decide_eq_true_eq, minimumLength]

theorem Frame.decode_reportsFirst (d : Bytes) (c : Config) :
    ReportsFirst (Frame.decode d c) (faults d c) := by
  refine (checkVersion_reportsFirst d version headerLength).bind fun _ hversion => ?_
  obtain ⟨h, hh, hocf, hpresent, hsync, hpointer⟩ :=
    Header.exists_decode (le_length_of_checkVersion hversion)
  rw [hh]
  dsimp only
  refine ReportsFirst.bind_one ?_ fun secondary hsecondary => ?_
  · rw [secondaryHeaderLength_eq hpresent]
    refine .ite ?_ fun _ => .of_ok rfl
    rw [Bool.and_eq_true, decide_eq_true_iff, decide_eq_true_iff]
  have htotal := c.total_of_header hocf hpresent hsecondary
  refine .bind_one (FrameBytes.ofBytes_reportsFirst htotal) fun framed hframed => ?_
  obtain ⟨hbytes, hoverhead⟩ := FrameBytes.ofBytes_eq_ok_iff.mp hframed
  have hroom : framed.dataFieldLength = d.length - minimumLength d c := by
    rw [FrameBytes.dataFieldLength, hbytes, hoverhead, ← htotal]
    rfl
  have hfecf : framed.overhead.fecfPresent = c.fecfPresent := by rw [hoverhead]
  refine .bind_one ?_ fun _ _ => ?_
  · rw [checkPointer, hroom, Header.pointerIsSentinel, hpointer, hsync]
    refine .ite ?_ fun _ => .of_ok rfl
    simp only [idlePointer, noPacketPointer, Bool.and_eq_true, Bool.not_eq_true',
      Bool.or_eq_false_iff, decide_eq_true_eq, decide_eq_false_iff_not, beq_eq_false_iff_ne,
      and_assoc, Nat.mod_two_not_eq_one]
  exact .bind_one (FrameBytes.checkFecf_reportsFirst hbytes hfecf _) fun _ _ => .of_ok rfl

end SpaceLink.Tm
