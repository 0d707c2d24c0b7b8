import SpaceLink.Aos.Stored
import SpaceLink.Proofs.Zones
import SpaceLink.Proofs.Aos.Faults

/-! # Decoding AOS frames in words -/

namespace SpaceLink.Aos

/-- The lengths of the parts together are a word, and so is the number of bits that there may be in
the bitstream of a frame of `length` bytes. -/
def Config.InWords (c : Config) (length : Nat) : Prop :=
  c.minimumLength < wordSize ∧
    (c.userDataType = .bpdu → 8 * (length - (c.minimumLength + 2)) < wordSize)

instance (c : Config) (length : Nat) : Decidable (c.InWords length) :=
  inferInstanceAs (Decidable (_ ∧ (_ → _)))

namespace StoredFrame

theorem checkHeader_eq {d : Bytes} {c : Config}
    (hd : c.fhecPresent = true → headerLength + fhecLength ≤ d.length) :
    checkHeader d c =
      if c.strict && !headerValid c.fhecPresent d then throw Error.fhec
      else return headerValid c.fhecPresent d := by
  rw [checkHeader, headerValid]
  cases hp : c.fhecPresent with
  | false =>
    rw [Bool.not_false, Bool.true_or, Bool.not_true, Bool.and_false]
    rfl
  | true =>
    rw [Bytes.between?_slice (hd hp), Bool.not_true, Bool.false_or]
    rfl

theorem checkBitstream_agrees (a : Arithmetic) {pointer zoneLength : Nat} {stops : Prop}
    (hwrapping : a = .wrapping → zoneLength * 8 < wordSize)
    (hstops : wordSize ≤ zoneLength * 8 → stops) :
    (readPointer.checkBitstream a pointer zoneLength).Agrees stops Eq
      (Aos.checkBitstream pointer zoneLength) := by
  rw [readPointer.checkBitstream, Aos.checkBitstream]
  by_cases hsentinel : pointer = idleBitstream ∨ pointer = fullBitstream
  · rw [if_pos hsentinel, if_neg fun h => hsentinel.elim h.1 h.2.1]
    exact .ok rfl
  · rw [if_neg hsentinel]
    obtain ⟨hidle, hfull⟩ := not_or.mp hsentinel
    simp only [ne_eq, hidle, hfull, not_false_eq_true, true_and]
    exact .bind_mul hwrapping hstops fun _ => .ite (fun _ => .error _) fun _ => .ok rfl

/-- The pointer is the number that the data field begins with, once that is known to be there. -/
theorem readPointer_agrees (a : Arithmetic) (f : FrameBytes) (type : UserDataType) {stops : Prop}
    (h : f.bytes.Storable)
    (hwrapping : a = .wrapping → type = .bpdu →
      (f.dataFieldLength - pduHeaderLength) * 8 < wordSize)
    (hstops : type = .bpdu → wordSize ≤ (f.dataFieldLength - pduHeaderLength) * 8 → stops) :
    (readPointer a f.bytes f.zones type).Agrees stops (fun p _ => p = pointerOf? type f.dataField)
      (checkPdu type f.bytes.length f.dataField) := by
  have hlength := h.length_lt
  have hend : f.dataFieldStart + f.dataFieldLength ≤ f.bytes.length := by
    have hend := f.fecfStart_add_fecf
    rw [FrameBytes.fecfStart, FrameBytes.ocfStart, FrameBytes.trailerStart] at hend
    omega
  have hword (hle : pduHeaderLength ≤ f.dataFieldLength) :
      Bytes.between? f.dataFieldStart (f.dataFieldStart + pduHeaderLength) f.bytes =
        some (f.dataField.take pduHeaderLength) := by
    rw [Bytes.between?_slice (by omega), FrameBytes.dataField, Bytes.slice, Bytes.slice,
      List.take_take, Nat.min_eq_left hle]
  cases type with
  | vca | idle => exact .ok rfl
  | mpdu | bpdu =>
    rw [readPointer, f.zones_dataFieldEnd, f.zones_dataFieldStart, a.sub_of_le (Nat.le_add_right _ _),
      some_bind, Nat.add_sub_cancel_left, checkPdu, pointerOf?, f.length_dataField]
    dsimp only
    refine .ite (fun hshort => ?_) fun hlong => ?_
    · rw [a.add_of_lt (by rw [pduHeaderLength]; omega), some_bind, a.sub_of_le (by omega), some_bind]
      exact .error _
    · have hle := Nat.not_lt.mp hlong
      rw [a.add_of_lt (by omega), some_bind, hword hle, some_bind]
      first
      | exact .ite (fun _ => (Program.Agrees.lift _).map fun _ _ _ => rfl) (absurd rfl)
      | refine .ite (fun htype => UserDataType.noConfusion htype) fun _ => ?_
        exact (checkBitstream_agrees a (hwrapping · rfl) (hstops rfl)).map fun _ _ _ => rfl

theorem decode_agrees (a : Arithmetic) {d : Bytes} {c : Config} (hd : d.Storable)
    (hwrapping : a = .wrapping → c.InWords d.length) :
    (decode a d c).Agrees (¬c.InWords d.length) (fun s f => s = f.stored) (Frame.decode d c) := by
  have hsums : a = .wrapping → c.minimumLength < wordSize := fun h => (hwrapping h).1
  have hstops (h : wordSize ≤ c.minimumLength) : ¬c.InWords d.length :=
    fun hwords => Nat.not_lt.mpr h hwords.1
  refine .bind_lift fun _ _ => ?_
  cases hh : Header.decode d with
  | none => exact .error _
  | some header =>
    rw [← c.total_overhead] at hsums hstops
    have hheaders : headerLength + (if c.fhecPresent then fhecLength else 0) +
        c.insertZoneLength ≤ c.overhead.total := by
      rw [Overhead.total, Overhead.leading]
      exact Nat.le_trans (Nat.le_add_right _ _) (Nat.le_add_right _ _)
    refine .bind_add (fun h => Nat.lt_of_le_of_lt hheaders (hsums h))
      (fun h => hstops (Nat.le_trans h hheaders)) fun _ => ?_
    refine (Zones.compute_agrees a (by have := hd.length_lt; omega) hsums hstops).bind
      fun z framed hframed hz => ?_
    obtain ⟨hbytes, hoverhead⟩ := FrameBytes.ofBytes_eq_ok_iff.mp hframed
    subst hz hbytes
    have hfhec (hp : c.fhecPresent = true) : headerLength + fhecLength ≤ framed.bytes.length := by
      have hfits := framed.fits
      rw [if_pos hp] at hheaders
      rw [hoverhead] at hfits
      omega
    have hzone : framed.dataFieldLength - pduHeaderLength =
        framed.bytes.length - (c.minimumLength + 2) := by
      rw [FrameBytes.dataFieldLength, hoverhead, c.total_overhead, Nat.sub_sub]
      rfl
    rw [checkHeader_eq hfhec]
    by_cases hstrict : (c.strict && !headerValid c.fhecPresent framed.bytes) = true
    · rw [if_pos hstrict, if_pos hstrict]
      exact .error _
    · rw [if_neg hstrict, if_neg hstrict]
      refine (readPointer_agrees a framed c.userDataType hd (fun ha htype => ?_)
        fun htype hlong hwords => ?_).bind fun pointer? _ _ hpointer => ?_
      · rw [hzone, Nat.mul_comm]
        exact (hwrapping ha).2 htype
      · rw [hzone, Nat.mul_comm] at hlong
        exact Nat.not_lt.mpr hlong (hwords.2 htype)
      refine (framed.zones_checkFecf a c.strict).bind fun valid _ _ hvalid => .ok ?_
      rw [hpointer, hvalid]
      rfl

end StoredFrame

end SpaceLink.Aos
