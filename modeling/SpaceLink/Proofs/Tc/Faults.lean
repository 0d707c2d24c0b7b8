import SpaceLink.Proofs.Faults
import SpaceLink.Proofs.Tc.Frame

/-! # The faults of TC frames -/

namespace SpaceLink.Tc

/-- Both flags are set, so that the frame has a control command. -/
def isCommand (d : Bytes) : Bool := d.octet 0 / 16 % 4 = 3

/-- The number of bytes of everything but the data field. -/
def minimumLength (d : Bytes) (c : Config) : Nat :=
  if isCommand d then 5 + if c.fecfPresent then 2 else 0
  else 5 + (if c.segmented then 1 else 0) + c.securityHeaderLength + c.securityTrailerLength +
    if c.fecfPresent then 2 else 0

/-- What may be wrong with a TC frame, in the order in which it is looked for. -/
def faults (d : Bytes) (c : Config) : List Fault :=
  let declared := d.octet 2 % 4 * 256 + d.octet 3 + 1
  versionFaults d 0 5 ++
    [⟨declared ≠ d.length, .frameLength declared d.length⟩,
      ⟨!isCommand d && c.segmented && d.length < 6, .notEnoughData d.length 6⟩,
      tooShort d (minimumLength d c),
      fecfFault d c.strict c.fecfPresent]

/-- The header fields that matter for decoding, by the bytes that have them. -/
theorem Header.exists_decode {d : Bytes} (h : 5 ≤ d.length) :
    ∃ header, Header.decode d = some header ∧ (header.frameType = .bc ↔ isCommand d = true) ∧
      header.frameLength = d.octet 2 % 4 * 256 + d.octet 3 + 1 := by
  match d, h with
  | b0 :: b1 :: b2 :: b3 :: b4 :: rest, _ =>
    have h1 := b1.toNat_lt
    have h3 := b3.toNat_lt
    refine ⟨_, rfl, ?_⟩
    simp only [frameType_eq_bc_iff, isCommand, flag_eq, bits_eq, Bytes.toNatBE, List.foldl,
      Bytes.octet, List.getD_cons_succ, List.getD_cons_zero, decide_eq_true_eq]
    refine ⟨?_, ?_⟩ <;> omega

theorem readSegmentHeader_reportsFirst (d : Bytes) (segmented : Bool) :
    ReportsFirst (readSegmentHeader d segmented)
      [⟨segmented && d.length < 6, .notEnoughData d.length 6⟩] := by
  rw [readSegmentHeader]
  cases segmented with
  | false => exact .cons rfl (.of_ok rfl)
  | true =>
    rw [if_pos rfl, Bool.true_and]
    cases hb : d[headerLength]? with
    | none =>
      have hlen : d.length < 6 := Nat.lt_succ_of_le (List.getElem?_eq_none_iff.mp hb)
      exact .of_applies (tooShort d 6) (decide_eq_true hlen)
    | some b =>
      obtain ⟨hlen, -⟩ := List.getElem?_eq_some_iff.mp hb
      exact .cons (decide_eq_false (Nat.not_lt.mpr hlen)) (.of_ok rfl)

theorem total_commandOverhead {d : Bytes} (c : Config) (h : isCommand d = true) :
    c.commandOverhead.total = minimumLength d c := by
  show 5 + 0 + (0 + 0 + if c.fecfPresent then 2 else 0) = _
  rw [minimumLength, if_pos h]
  omega

theorem total_dataOverhead {d : Bytes} (c : Config) (h : isCommand d = false) :
    c.dataOverhead.total = minimumLength d c := by
  show 5 + (if c.segmented then 1 else 0) + c.securityHeaderLength + (c.securityTrailerLength + 0 +
    if c.fecfPresent then 2 else 0) = _
  rw [minimumLength, if_neg (ne_true_of_eq_false h)]
  omega

theorem total_overheadIn {h : Header} {d : Bytes} (c : Config)
    (hcommand : h.frameType = .bc ↔ isCommand d = true) :
    (c.overheadIn h.frameType).total = minimumLength d c := by
  by_cases htype : h.frameType = .bc
  · rw [htype]
    exact total_commandOverhead c (hcommand.mp htype)
  · rw [c.overheadIn_of_ne_bc htype]
    exact total_dataOverhead c (Bool.eq_false_iff.mpr fun hc => htype (hcommand.mpr hc))

theorem readParts_reportsFirst {h : Header} {d : Bytes}
    (hcommand : h.frameType = .bc ↔ isCommand d = true) (c : Config) :
    ReportsFirst (readParts h d c)
      [⟨!isCommand d && c.segmented && d.length < 6, .notEnoughData d.length 6⟩,
        tooShort d (minimumLength d c)] := by
  rw [readParts]
  cases htype : h.frameType with
  | bc =>
    have hc := hcommand.mp htype
    refine .cons ?_ (.bind_one (FrameBytes.ofBytes_reportsFirst (total_commandOverhead c hc))
      fun _ _ => .of_ok rfl)
    rw [hc]
    rfl
  | ad | bd | reserved =>
    have hc : isCommand d = false := by
      refine Bool.eq_false_iff.mpr fun hc => ?_
      rw [hcommand.mpr hc] at htype
      cases htype
    rw [hc]
    refine .bind_one (readSegmentHeader_reportsFirst d c.segmented) fun _ _ => ?_
    exact .bind_one (FrameBytes.ofBytes_reportsFirst (total_dataOverhead c hc))
      fun _ _ => .of_ok rfl

theorem Frame.decode_reportsFirst (d : Bytes) (c : Config) :
    ReportsFirst (Frame.decode d c) (faults d c) := by
  refine (checkVersion_reportsFirst d version headerLength).bind fun _ hversion => ?_
  obtain ⟨h, hh, hcommand, hlength⟩ := Header.exists_decode (le_length_of_checkVersion hversion)
  rw [hh]
  dsimp only
  rw [hlength]
  refine .ite decide_eq_true_iff fun _ => ?_
  refine (readParts_reportsFirst hcommand c).bind fun (segmentHeader?, framed) hparts => ?_
  obtain ⟨-, hbytes, hoverhead⟩ := readParts_eq_ok_iff.mp hparts
  have hfecf : framed.overhead.fecfPresent = c.fecfPresent := by
    rw [hoverhead, c.fecfPresent_overheadIn]
  exact .bind_one (FrameBytes.checkFecf_reportsFirst hbytes hfecf _) fun _ _ => .of_ok rfl

end SpaceLink.Tc
