import SpaceLink.Proofs.Aos.Frame
import SpaceLink.Proofs.Faults

/-! # The faults of AOS frames -/

namespace SpaceLink.Aos

/-- The number of bytes before the data field. -/
def Config.dataFieldStart (c : Config) : Nat :=
  6 + (if c.fhecPresent then 2 else 0) + c.insertZoneLength + c.securityHeaderLength

/-- The number of bytes of everything but the data field. -/
def Config.minimumLength (c : Config) : Nat :=
  c.dataFieldStart + c.securityTrailerLength + (if c.ocfPresent then 4 else 0) +
    if c.fecfPresent then 2 else 0

/-- What may be wrong with the header of the data field of a frame with `length` bytes. Its word is
read only if it is there. -/
def pduFaults (type : UserDataType) (length minimum word : Nat) : List Fault :=
  let zone := length - (minimum + 2)
  let first := word % 2048
  let last := word % 16384
  [⟨(type = .mpdu || type = .bpdu) && length < minimum + 2, .notEnoughData length (minimum + 2)⟩,
    ⟨type = .mpdu && first ≠ 0x7fe && first ≠ 0x7ff && zone ≤ first,
      .pointer .firstHeaderPointer first zone⟩,
    ⟨type = .bpdu && last ≠ 0x3ffe && last ≠ 0x3fff && 8 * zone < last,
      .pointer .bitstreamDataPointer last zone⟩]

/-- What may be wrong with an AOS frame, in the order in which it is looked for. -/
def faults (d : Bytes) (c : Config) : List Fault :=
  let word := d.octet c.dataFieldStart * 256 + d.octet (c.dataFieldStart + 1)
  versionFaults d 1 6 ++
    [tooShort d c.minimumLength,
      ⟨c.strict && c.fhecPresent && !fhecValid (d.take 6) (Bytes.slice 6 2 d), .fhec⟩] ++
    pduFaults c.userDataType d.length c.minimumLength word ++
    [fecfFault d c.strict c.fecfPresent]

theorem Config.total_overhead (c : Config) : c.overhead.total = c.minimumLength := by
  show c.dataFieldStart + (c.securityTrailerLength + (if c.ocfPresent then 4 else 0) +
    if c.fecfPresent then 2 else 0) = _
  rw [minimumLength]
  omega

theorem checkPdu_reportsFirst {type : UserDataType} {dataField : Bytes} {length minimum word : Nat}
    (hlen : length = minimum + dataField.length)
    (hword : pduHeaderLength ≤ dataField.length →
      Bytes.toNatBE (dataField.take pduHeaderLength) = word) :
    ReportsFirst (checkPdu type length dataField) (pduFaults type length minimum word) := by
  have hminimum : length + pduHeaderLength - dataField.length = minimum + 2 := by
    rw [hlen, pduHeaderLength]
    omega
  have hzone : dataField.length - pduHeaderLength = length - (minimum + 2) := by
    rw [hlen, Nat.add_sub_add_left, pduHeaderLength]
  have hshort : length < minimum + 2 ↔ dataField.length < pduHeaderLength := by
    rw [hlen, Nat.add_lt_add_iff_left, pduHeaderLength]
  cases type with
  | vca | idle => exact .of_ok rfl
  | mpdu =>
    rw [checkPdu, pointerOf?]
    dsimp only
    rw [hminimum]
    refine .ite (decide_eq_true_iff.trans hshort) fun hlong => ?_
    rw [if_pos rfl, hword (Nat.not_lt.mp hlong), bits_zero, hzone, checkFirstHeader]
    refine .ite ?_ fun _ => .cons rfl (.of_ok rfl)
    simp only [idlePointer, noPacketPointer, Bool.and_eq_true, decide_eq_true_eq, true_and,
      and_assoc, Nat.reducePow]
  | bpdu =>
    rw [checkPdu, pointerOf?]
    dsimp only
    rw [hminimum]
    refine .ite (decide_eq_true_iff.trans hshort) fun hlong => .cons rfl ?_
    rw [if_neg (by decide), hword (Nat.not_lt.mp hlong), bits_zero, hzone, checkBitstream]
    refine .ite ?_ fun _ => .of_ok rfl
    simp only [idleBitstream, fullBitstream, Bool.and_eq_true, decide_eq_true_eq, true_and,
      and_assoc, Nat.reducePow, Nat.mul_comm 8]

theorem Frame.decode_reportsFirst (d : Bytes) (c : Config) :
    ReportsFirst (Frame.decode d c) (faults d c) := by
  rw [faults, List.append_assoc, List.append_assoc]
  refine (checkVersion_reportsFirst d version headerLength).bind fun _ hversion => ?_
  obtain ⟨h, hh⟩ : ∃ h, Header.decode d = some h := by
    match d, le_length_of_checkVersion hversion with
    | _ :: _ :: _ :: _ :: _ :: _ :: _, _ => exact ⟨_, rfl⟩
  rw [hh]
  refine .bind_one (FrameBytes.ofBytes_reportsFirst c.total_overhead) fun framed hframed => ?_
  obtain ⟨hbytes, hoverhead⟩ := FrameBytes.ofBytes_eq_ok_iff.mp hframed
  have hfits : c.minimumLength ≤ d.length := by
    rw [← c.total_overhead, ← hoverhead, ← hbytes]
    exact framed.fits
  have hroom : framed.dataField.length = d.length - c.minimumLength := by
    rw [framed.length_dataField, FrameBytes.dataFieldLength, hbytes, hoverhead, c.total_overhead]
  have hfecf : framed.overhead.fecfPresent = c.fecfPresent := by
    rw [hoverhead]
    rfl
  refine .ite ?_ fun _ => ?_
  · rw [headerValid, Bool.and_assoc, Bool.not_or, Bool.not_not]
    rfl
  refine (checkPdu_reportsFirst ?_ fun hlen => ?_).bind fun _ _ => ?_
  · rw [hroom, Nat.add_sub_cancel' hfits]
  · have hstart : framed.dataFieldStart = c.dataFieldStart := by
      rw [FrameBytes.dataFieldStart, hoverhead]
      rfl
    rw [← hbytes, ← hstart]
    exact FrameBytes.toNatBE_take_dataField hlen
  exact .bind_one (FrameBytes.checkFecf_reportsFirst hbytes hfecf _) fun _ _ => .of_ok rfl

end SpaceLink.Aos
