import SpaceLink.FrameBytes
import SpaceLink.Proofs.BitField

/-!
# The parts of a frame tile it

`FrameBytes.tile` puts a frame together from its parts. Bytes that are put together from parts of
the right lengths therefore have these parts (`FrameBytes.parts_eq`), a check appended to them is
valid (`FrameBytes.isValid_of_appendFecf`), and a valid check is the one that would be appended
(`FrameBytes.bytes_eq_of_isValid`).
-/

namespace SpaceLink

theorem Bytes.take_append_slice (start len : Nat) (d : Bytes) :
    d.take start ++ slice start len d = d.take (start + len) := by
  rw [slice, ← List.take_add]

theorem crc16_eq_of_ofNatBE (d : Bytes) :
    Bytes.toNatBE (Bytes.ofNatBE fecfLength (crc16 d)) = crc16 d :=
  Bytes.toNatBE_ofNatBE (crc16_lt d)

/-- The bytes of a part, unless the part has none. -/
def Bytes.present? (d : Bytes) : Option Bytes := if d = [] then none else some d

@[simp] theorem Bytes.present?_getD (d : Bytes) : d.present?.getD [] = d := by
  rw [present?]
  split
  · exact ‹d = []›.symm
  · rfl

theorem Bytes.eq_of_mem_present? {d e : Bytes} (h : e ∈ d.present?) : e = d := by
  rw [present?] at h
  split at h
  · cases h
  · exact (Option.some.inj h).symm

theorem Bytes.present?_isSome_or (d : Bytes) : d.present?.isSome = true ∨ d.length = 0 := by
  rw [present?]
  split
  · exact .inr (List.length_eq_zero_iff.mpr ‹d = []›)
  · exact .inl rfl

namespace FrameBytes

variable (f : FrameBytes)

/-- The bytes of the operational control field, none if the frame does not have it. -/
def ocfBytes : Bytes := Bytes.slice f.ocfStart f.overhead.ocf f.bytes

/-- The bytes of the frame error control field, none if the frame does not have it. -/
def fecfBytes : Bytes := Bytes.slice f.fecfStart f.overhead.fecf f.bytes

theorem ocf?_eq : f.ocf? = if f.overhead.ocfPresent then some f.ocfBytes else none := by
  rw [ocf?, ocfBytes, Overhead.ocf]
  cases f.overhead.ocfPresent <;> rfl

theorem fecf?_eq :
    f.fecf? = if f.overhead.fecfPresent then some (Bytes.toNatBE f.fecfBytes) else none := by
  rw [fecf?, fecfBytes, Overhead.fecf]
  cases f.overhead.fecfPresent <;> rfl

theorem take_fecfStart : f.headers ++ f.securityHeader ++ f.dataField ++ f.securityTrailer ++
    f.ocfBytes = f.bytes.take f.fecfStart := by
  have hdata : f.headers ++ f.securityHeader = f.bytes.take f.dataFieldStart :=
    Bytes.take_append_slice _ _ _
  have htrailer : f.bytes.take f.dataFieldStart ++ f.dataField = f.bytes.take f.trailerStart :=
    Bytes.take_append_slice _ _ _
  have hocf : f.bytes.take f.trailerStart ++ f.securityTrailer = f.bytes.take f.ocfStart :=
    Bytes.take_append_slice _ _ _
  rw [hdata, htrailer, hocf, ocfBytes, Bytes.take_append_slice, fecfStart]

/-- A frame is its parts one after the other. -/
theorem tile : f.headers ++ f.securityHeader ++ f.dataField ++ f.securityTrailer ++ f.ocfBytes ++
    f.fecfBytes = f.bytes := by
  rw [take_fecfStart, fecfBytes, Bytes.take_append_slice, fecfStart_add_fecf, List.take_length]

theorem length_headers : f.headers.length = f.overhead.headers := by
  have := f.fits
  rw [Overhead.total, Overhead.leading] at this
  rw [headers, List.length_take]
  omega

theorem length_securityHeader : f.securityHeader.length = f.overhead.securityHeader := by
  have := f.fits
  rw [Overhead.total, Overhead.leading] at this
  rw [securityHeader, Bytes.length_slice]
  omega

theorem length_securityTrailer : f.securityTrailer.length = f.overhead.securityTrailer := by
  have := f.fecfStart_add_fecf
  rw [fecfStart, ocfStart] at this
  rw [securityTrailer, Bytes.length_slice]
  omega

theorem length_ocfBytes : f.ocfBytes.length = f.overhead.ocf := by
  have := f.fecfStart_add_fecf
  rw [fecfStart] at this
  rw [ocfBytes, Bytes.length_slice]
  omega

theorem length_fecfBytes : f.fecfBytes.length = f.overhead.fecf := by
  have := f.fecfStart_add_fecf
  rw [fecfBytes, Bytes.length_slice]
  omega

variable {f}

theorem length_of_mem_ocf? {d : Bytes} (h : d ∈ f.ocf?) :
    f.overhead.ocfPresent = true ∧ d.length = ocfLength := by
  have hlen := f.length_ocfBytes
  rw [ocf?_eq] at h
  split at h
  · rename_i hp
    cases h
    rw [Overhead.ocf, if_pos hp] at hlen
    exact ⟨hp, hlen⟩
  · cases h

/-- Bytes made of parts of the right lengths have these parts. -/
theorem parts_eq {headers securityHeader dataField securityTrailer ocf fecf : Bytes}
    (h : f.bytes = headers ++ securityHeader ++ dataField ++ securityTrailer ++ ocf ++ fecf)
    (hheaders : headers.length = f.overhead.headers)
    (hsecurityHeader : securityHeader.length = f.overhead.securityHeader)
    (hsecurityTrailer : securityTrailer.length = f.overhead.securityTrailer)
    (hocf : ocf.length = f.overhead.ocf) (hfecf : fecf.length = f.overhead.fecf) :
    f.headers = headers ∧ f.securityHeader = securityHeader ∧ f.dataField = dataField ∧
      f.securityTrailer = securityTrailer ∧ f.ocfBytes = ocf ∧ f.fecfBytes = fecf := by
  rw [← tile] at h
  obtain ⟨h, h6⟩ := List.append_inj' h (f.length_fecfBytes.trans hfecf.symm)
  obtain ⟨h, h5⟩ := List.append_inj' h (f.length_ocfBytes.trans hocf.symm)
  obtain ⟨h, h4⟩ := List.append_inj' h (f.length_securityTrailer.trans hsecurityTrailer.symm)
  have hleading : (f.headers ++ f.securityHeader).length = (headers ++ securityHeader).length := by
    rw [List.length_append, List.length_append, f.length_headers, f.length_securityHeader, hheaders,
      hsecurityHeader]
  obtain ⟨h, h3⟩ := List.append_inj h hleading
  obtain ⟨h1, h2⟩ := List.append_inj h (f.length_headers.trans hheaders.symm)
  exact ⟨h1, h2, h3, h4, h5, h6⟩

/-- A check that is appended is right. -/
theorem isValid_of_appendFecf {d : Bytes}
    (h : f.bytes = if f.overhead.fecfPresent then appendFecf d else d) : f.isValid = true := by
  rw [isValid, fecf?_eq]
  cases hp : f.overhead.fecfPresent with
  | false => rfl
  | true =>
    rw [hp, if_pos rfl, ← tile, take_fecfStart] at h
    have hlen : f.fecfBytes.length = (Bytes.ofNatBE fecfLength (crc16 d)).length := by
      rw [length_fecfBytes, Overhead.fecf, if_pos hp, Bytes.length_ofNatBE]
    obtain ⟨hd, hfecf⟩ := List.append_inj' h hlen
    rw [if_pos rfl, Option.all_some, computedFecf, hd, hfecf, crc16_eq_of_ofNatBE, beq_self_eq_true]

/-- A check that is right is the one that would be appended. -/
theorem bytes_eq_of_isValid (h : f.isValid = true) :
    f.bytes = if f.overhead.fecfPresent then appendFecf (f.bytes.take f.fecfStart)
      else f.bytes.take f.fecfStart := by
  have hlen := f.length_fecfBytes
  rw [Overhead.fecf] at hlen
  rw [isValid, fecf?_eq] at h
  have htile : f.bytes.take f.fecfStart ++ f.fecfBytes = f.bytes := by rw [← take_fecfStart, tile]
  cases hp : f.overhead.fecfPresent with
  | false =>
    rw [hp] at hlen
    rw [List.eq_nil_of_length_eq_zero hlen, List.append_nil] at htile
    exact htile.symm
  | true =>
    rw [hp] at h
    rw [hp, if_pos rfl] at hlen
    have hfecf : Bytes.toNatBE f.fecfBytes = f.computedFecf := beq_iff_eq.mp h
    rw [if_pos rfl, appendFecf, ← computedFecf, ← hfecf, Bytes.ofNatBE_toNatBE hlen, htile]

theorem fecfStart_eq (h : f.overhead.fecfPresent = true) :
    f.fecfStart = f.bytes.length - fecfLength := by
  have hstart := f.fecfStart_add_fecf
  rw [Overhead.fecf, if_pos h] at hstart
  exact Nat.eq_sub_of_add_eq hstart

/-- The check is all that follows the bytes that it covers. -/
theorem fecfBytes_eq (h : f.overhead.fecfPresent = true) :
    f.fecfBytes = f.bytes.drop (f.bytes.length - fecfLength) := by
  have hstart := f.fecfStart_add_fecf
  rw [← fecfStart_eq h, fecfBytes, Bytes.slice, List.take_of_length_le]
  rw [List.length_drop]
  omega

/-- A frame with a check is valid if its last two bytes are the check of those before. -/
theorem isValid_eq_fecfValid (h : f.overhead.fecfPresent = true) :
    f.isValid = SpaceLink.fecfValid f.bytes := by
  have hle : fecfLength ≤ f.bytes.length := by
    rw [← f.fecfStart_add_fecf, Overhead.fecf, if_pos h]
    exact Nat.le_add_left _ _
  rw [isValid, fecf?_eq, if_pos h, Option.all_some, computedFecf, fecfBytes_eq h, fecfStart_eq h,
    SpaceLink.fecfValid, decide_eq_true hle, Bool.true_and]
  exact Bool.beq_comm

/-- The check matters only if checking is strict. -/
theorem checkFecf_eq_ok_iff {strict : Bool} :
    f.checkFecf strict = .ok () ↔ (strict = true → f.isValid = true) := by
  rw [checkFecf, isValid]
  cases f.fecf? with
  | none => exact ⟨fun _ _ => rfl, fun _ => rfl⟩
  | some expected =>
    rw [Option.all_some]
    dsimp only
    split
    · rename_i h
      simp only [Bool.and_eq_true, bne_iff_ne] at h
      simp [h]
    · rename_i h
      simp only [Bool.and_eq_true, bne_iff_ne] at h
      simpa using h

end FrameBytes

/-- The version that is checked is the one that headers have in their first two bits. -/
theorem bits_first_word (b0 b1 : UInt8) :
    bits (Bytes.toNatBE [b0, b1]) 14 2 = bits b0.toNat 6 2 := by
  have hb := b1.toNat_lt
  rw [bits_eq, bits_eq]
  simp only [Bytes.toNatBE, List.foldl]
  omega

section

variable {b0 b1 : UInt8} {rest : Bytes} {expected minimum : Nat}

theorem version_of_checkVersion
    (h : checkVersion (b0 :: b1 :: rest) expected minimum = .ok ()) :
    bits (Bytes.toNatBE [b0, b1]) 14 2 = expected := by
  rw [checkVersion] at h
  split at h
  · cases h
  · rw [bits_first_word]
    exact Decidable.not_not.mp ‹_›

theorem checkVersion_of_version (h : bits (Bytes.toNatBE [b0, b1]) 14 2 = expected)
    (hl : minimum ≤ (b0 :: b1 :: rest).length) :
    checkVersion (b0 :: b1 :: rest) expected minimum = .ok () := by
  rw [bits_first_word] at h
  rw [checkVersion, h, if_neg (not_not_intro rfl), if_neg (Nat.not_lt.mpr hl)]

end

end SpaceLink
