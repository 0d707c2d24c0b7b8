import SpaceLink.Draft
import SpaceLink.Proofs.FrameBytes
import SpaceLink.Proofs.Steps

/-!
# What a draft has been told

A `Request` is what the accepted steps of a builder ask a draft for. A draft `Answers` a request
when its parts are the last ones asked for and its user data is as much as fits of all that was
added. A finished draft makes a frame with these parts.
-/

namespace SpaceLink

/-! ## Parts -/

/-- A part declared with `len` bytes, for which `told?` is the last content given. -/
structure Part.Told (p : Part) (len : Nat) (told? : Option Bytes) : Prop where
  length : p.length = len
  content : p.content? = told?.or (if len = 0 then some [] else none)
  fits : ∀ d ∈ told?, d.length = len

namespace Part

variable {p p' : Part} {len : Nat} {told? : Option Bytes} {field : Field} {d : Bytes}

theorem told_declare (len : Nat) : (Part.declare len).Told len none :=
  ⟨rfl, Option.none_or.symm, nofun⟩

theorem get_eq_ok_iff : p.get field = .ok d ↔ p.content? = some d := by
  rw [get]
  cases p.content? <;> simp

theorem Told.set (h : p.Told len told?) (hs : p.set field d = .ok p') : p'.Told len (some d) := by
  obtain ⟨⟨⟩, hlen, hs⟩ := bind_eq_ok_iff.mp hs
  cases hs
  refine ⟨h.length, Option.some_or.symm, fun e he => ?_⟩
  cases he
  exact (checkLength_eq_ok_iff.mp hlen).symm.trans h.length

/-- A part takes any content of its length. -/
theorem Told.exists_set (h : p.Told len told?) (field : Field) (hd : d.length = len) :
    ∃ p', p.set field d = .ok p' :=
  ⟨_, bind_eq_ok_iff.mpr ⟨(), checkLength_eq_ok_iff.mpr (h.length.trans hd.symm), rfl⟩⟩

theorem Told.get (h : p.Told len told?) (hg : p.get field = .ok d) :
    d = told?.getD [] ∧ d.length = len := by
  rw [get_eq_ok_iff, h.content] at hg
  cases told? with
  | some e =>
    cases hg
    exact ⟨rfl, h.fits _ rfl⟩
  | none =>
    rw [Option.none_or] at hg
    split at hg
    · cases hg
      exact ⟨rfl, ‹len = 0›.symm⟩
    · cases hg

/-- A part that has been told its content, or that is empty, is complete. -/
theorem Told.get_of_isSome (h : p.Told len told?) (ht : told?.isSome = true ∨ len = 0) :
    p.get field = .ok (told?.getD []) := by
  rw [get_eq_ok_iff, h.content]
  cases told? with
  | some d => rfl
  | none =>
    rw [if_pos (ht.resolve_left Bool.false_ne_true)]
    rfl

/-- A part that the frame may not have. It is told nothing then. -/
def Told? (p? : Option Part) (len : Nat) (present : Bool) (told? : Option Bytes) : Prop :=
  match p? with
  | some p => present = true ∧ p.Told len told?
  | none => present = false ∧ told? = none

variable {p? p'? : Option Part} {present : Bool} {d? : Option Bytes}

theorem Told?.set (h : Told? p? len present told?) (hs : set? p? field d = .ok p'?) :
    Told? p'? len present (some d) := by
  cases p? with
  | none => cases hs
  | some p =>
    obtain ⟨p', hp, hs⟩ := bind_eq_ok_iff.mp hs
    cases hs
    exact ⟨h.1, h.2.set hp⟩

theorem Told?.exists_set (h : Told? p? len present told?) (field : Field) (hp : present = true)
    (hd : d.length = len) : ∃ p'?, set? p? field d = .ok p'? := by
  cases p? with
  | none => exact absurd (h.1.symm.trans hp) Bool.false_ne_true
  | some p =>
    obtain ⟨p', hp'⟩ := h.2.exists_set field hd
    exact ⟨_, bind_eq_ok_iff.mpr ⟨p', hp', rfl⟩⟩

/-- What the frame has of a part that is not empty is what it was told. -/
theorem Told?.get (h : Told? p? len present told?) (hpos : present = true → 0 < len)
    (hg : get? p? field = .ok d?) :
    d? = told? ∧ d?.isSome = present ∧ ∀ d ∈ d?, d.length = len := by
  cases p? with
  | none =>
    cases hg
    exact ⟨h.2.symm, h.1.symm, nofun⟩
  | some p =>
    obtain ⟨d, hd, hg⟩ := bind_eq_ok_iff.mp hg
    cases hg
    obtain ⟨hcontent, hlen⟩ := h.2.get hd
    refine ⟨?_, h.1.symm, fun e he => ?_⟩
    · cases told? with
      | some e => exact congrArg some hcontent
      | none =>
        subst hcontent
        exact absurd hlen (Nat.ne_of_lt (hpos h.1))
    · cases he
      exact hlen

theorem Told?.get_of_isSome (h : Told? p? len present told?)
    (ht : present = true → told?.isSome = true) : get? p? field = .ok told? := by
  cases p? with
  | none =>
    rw [h.2]
    rfl
  | some p =>
    obtain ⟨d, rfl⟩ := Option.isSome_iff_exists.mp (ht h.1)
    rw [get?, h.2.get_of_isSome (.inl rfl), ok_bind]
    rfl

end Part

/-! ## Drafts -/

/-- What a draft is asked for: the last content given for each part, and all data added. -/
structure Request where
  securityHeader? : Option Bytes
  securityTrailer? : Option Bytes
  ocf? : Option Bytes
  userData : Bytes

/-- A draft with the parts of `o` and room for `room` bytes has what was asked for. -/
structure Draft.Answers (b : Draft) (o : Overhead) (room : Nat) (r : Request) : Prop where
  capacity : b.capacity = room
  userData : b.userData = r.userData.take room
  securityHeader : b.securityHeader.Told o.securityHeader r.securityHeader?
  securityTrailer : b.securityTrailer.Told o.securityTrailer r.securityTrailer?
  ocf : Part.Told? b.ocf? ocfLength o.ocfPresent r.ocf?
  fecfPresent : b.fecfPresent = o.fecfPresent

/-- The parts are as long as the overhead says. -/
structure Contents.Fits (c : Contents) (o : Overhead) : Prop where
  securityHeader : c.securityHeader.length = o.securityHeader
  securityTrailer : c.securityTrailer.length = o.securityTrailer
  ocfPresent : c.ocf?.isSome = o.ocfPresent
  ocf : ∀ d ∈ c.ocf?, d.length = ocfLength
  fecfPresent : c.fecfPresent = o.fecfPresent

/-- A frame begins with its headers. -/
theorem Contents.toBytes_eq_append (c : Contents) (headers reserved : Bytes) :
    ∃ rest, c.toBytes headers reserved = headers ++ rest := by
  rw [toBytes]
  split
  · exact ⟨_, by rw [appendFecf]; simp only [List.append_assoc]; rfl⟩
  · exact ⟨_, by simp only [List.append_assoc]; rfl⟩

theorem Contents.Fits.length_ocf {c : Contents} {o : Overhead} (h : c.Fits o) :
    (c.ocf?.getD []).length = o.ocf := by
  rw [Overhead.ocf, ← h.ocfPresent]
  cases hc : c.ocf? with
  | none => rfl
  | some d => exact h.ocf d hc

/-- A frame made of contents that fit is as long as its parts together. -/
theorem Contents.Fits.length_toBytes {c : Contents} {o : Overhead} {headers reserved : Bytes}
    (h : c.Fits o) (hl : headers.length = o.headers) :
    (c.toBytes headers reserved).length = o.total + reserved.length + c.userData.length := by
  have hchecked : (headers ++ c.securityHeader ++ reserved ++ c.userData ++ c.securityTrailer ++
      c.ocf?.getD []).length + o.fecf = o.total + reserved.length + c.userData.length := by
    simp only [List.length_append, hl, h.securityHeader, h.securityTrailer, h.length_ocf,
      Overhead.total, Overhead.leading, Overhead.trailing]
    omega
  rw [toBytes, h.fecfPresent, ← hchecked, Overhead.fecf]
  split
  · rw [appendFecf, List.length_append, Bytes.length_ofNatBE]
  · rfl

/-- A frame made of contents that fit has them as its parts, and its check is right. -/
theorem Contents.Fits.parts {c : Contents} {f : FrameBytes} {headers reserved : Bytes}
    (h : c.Fits f.overhead) (hb : f.bytes = c.toBytes headers reserved)
    (hl : headers.length = f.overhead.headers) :
    f.headers = headers ∧ f.securityHeader = c.securityHeader ∧
      f.dataField = reserved ++ c.userData ∧ f.securityTrailer = c.securityTrailer ∧
      f.ocf? = c.ocf? ∧ f.isValid = true := by
  rw [toBytes, h.fecfPresent] at hb
  let fecf := if f.overhead.fecfPresent then Bytes.ofNatBE fecfLength (crc16 (headers ++
    c.securityHeader ++ reserved ++ c.userData ++ c.securityTrailer ++ c.ocf?.getD [])) else []
  have hfecf : fecf.length = f.overhead.fecf := by
    rw [Overhead.fecf]
    dsimp only [fecf]
    split
    · exact Bytes.length_ofNatBE _ _
    · rfl
  have hparts : f.bytes = headers ++ c.securityHeader ++ (reserved ++ c.userData) ++
      c.securityTrailer ++ c.ocf?.getD [] ++ fecf := by
    rw [hb, ← List.append_assoc (headers ++ c.securityHeader)]
    dsimp only [fecf]
    split
    · rfl
    · rw [List.append_nil]
  obtain ⟨h1, h2, h3, h4, h5, -⟩ := FrameBytes.parts_eq hparts hl h.securityHeader
    h.securityTrailer h.length_ocf hfecf
  refine ⟨h1, h2, h3, h4, ?_, FrameBytes.isValid_of_appendFecf hb⟩
  rw [FrameBytes.ocf?_eq, h5, ← h.ocfPresent]
  cases c.ocf? <;> rfl

/-- A frame made of contents that fit can be taken apart. -/
theorem Contents.Fits.exists_ofBytes {c : Contents} {o : Overhead} {headers : Bytes}
    (h : c.Fits o) (reserved : Bytes) (hl : headers.length = o.headers) :
    ∃ f, FrameBytes.ofBytes (c.toBytes headers reserved) o = .ok f ∧
      f.dataField = reserved ++ c.userData := by
  let f : FrameBytes := {
    bytes := c.toBytes headers reserved, overhead := o
    fits := by rw [h.length_toBytes hl, Nat.add_assoc]; exact Nat.le_add_right _ _ }
  obtain ⟨-, -, hfield, -⟩ := Contents.Fits.parts (f := f) h rfl hl
  exact ⟨f, FrameBytes.ofBytes_eq_ok_iff.mpr ⟨rfl, rfl⟩, hfield⟩

/-- The parts of a valid frame make its bytes. -/
theorem Contents.toBytes_eq_bytes {c : Contents} {f : FrameBytes} {reserved : Bytes}
    (hv : f.isValid = true) (hheader : c.securityHeader = f.securityHeader)
    (hdata : reserved ++ c.userData = f.dataField)
    (htrailer : c.securityTrailer = f.securityTrailer) (hocf : c.ocf? = f.ocf?)
    (hfecf : c.fecfPresent = f.overhead.fecfPresent) : c.toBytes f.headers reserved = f.bytes := by
  have hocf' : c.ocf?.getD [] = f.ocfBytes := by
    have hlen := f.length_ocfBytes
    rw [Overhead.ocf] at hlen
    rw [hocf, FrameBytes.ocf?_eq]
    cases hp : f.overhead.ocfPresent with
    | true => rfl
    | false =>
      rw [hp] at hlen
      exact (List.eq_nil_of_length_eq_zero hlen).symm
  rw [toBytes, hheader, List.append_assoc (f.headers ++ _), hdata, htrailer, hocf',
    FrameBytes.take_fecfStart, hfecf]
  exact (FrameBytes.bytes_eq_of_isValid hv).symm

namespace Draft.Answers

variable {b b' : Draft} {o : Overhead} {room : Nat} {r : Request} {d : Bytes}

theorem plan {length reserved : Nat} (h : Draft.plan length o reserved = .ok b) :
    b.Answers o (length - o.total - reserved) ⟨none, none, none, []⟩ ∧
      length = o.total + reserved + (length - o.total - reserved) := by
  obtain ⟨left, hleft, h⟩ := bind_eq_ok_iff.mp h
  rw [Overhead.room_eq_ok_iff] at hleft
  subst hleft
  split at h
  · cases h
  · cases h
    rw [Nat.add_sub_cancel_left]
    refine ⟨⟨rfl, List.take_nil.symm, Part.told_declare _, Part.told_declare _, ?_, rfl⟩, by omega⟩
    dsimp only
    cases o.ocfPresent with
    | true => exact ⟨rfl, Part.told_declare _⟩
    | false => exact ⟨rfl, rfl⟩

/-- There is a draft for every length that the parts leave enough of. -/
theorem exists_plan {length reserved : Nat} (h : o.total + reserved ≤ length) :
    ∃ b, Draft.plan length o reserved = .ok b := by
  have hroom : o.room length = .ok (length - o.total) := o.room_eq_ok_iff.mpr (by omega)
  rw [Draft.plan, hroom, ok_bind, if_neg (by omega)]
  exact ⟨_, rfl⟩

theorem setSecurityHeader (h : b.Answers o room r) (hs : b.setSecurityHeader d = .ok b') :
    b'.Answers o room { r with securityHeader? := some d } := by
  obtain ⟨p, hp, hs⟩ := bind_eq_ok_iff.mp hs
  cases hs
  exact { h with securityHeader := h.securityHeader.set hp }

theorem setSecurityTrailer (h : b.Answers o room r) (hs : b.setSecurityTrailer d = .ok b') :
    b'.Answers o room { r with securityTrailer? := some d } := by
  obtain ⟨p, hp, hs⟩ := bind_eq_ok_iff.mp hs
  cases hs
  exact { h with securityTrailer := h.securityTrailer.set hp }

theorem setOcf (h : b.Answers o room r) (hs : b.setOcf d = .ok b') :
    b'.Answers o room { r with ocf? := some d } := by
  obtain ⟨p, hp, hs⟩ := bind_eq_ok_iff.mp hs
  cases hs
  exact { h with ocf := h.ocf.set hp }

theorem exists_setSecurityHeader (h : b.Answers o room r) (hd : d.length = o.securityHeader) :
    ∃ b', b.setSecurityHeader d = .ok b' := by
  obtain ⟨p, hp⟩ := h.securityHeader.exists_set .securityHeader hd
  exact ⟨_, bind_eq_ok_iff.mpr ⟨p, hp, rfl⟩⟩

theorem exists_setSecurityTrailer (h : b.Answers o room r) (hd : d.length = o.securityTrailer) :
    ∃ b', b.setSecurityTrailer d = .ok b' := by
  obtain ⟨p, hp⟩ := h.securityTrailer.exists_set .securityTrailer hd
  exact ⟨_, bind_eq_ok_iff.mpr ⟨p, hp, rfl⟩⟩

theorem exists_setOcf (h : b.Answers o room r) (hp : o.ocfPresent = true)
    (hd : d.length = ocfLength) : ∃ b', b.setOcf d = .ok b' := by
  obtain ⟨p?, hp?⟩ := h.ocf.exists_set .ocf hp hd
  exact ⟨_, bind_eq_ok_iff.mpr ⟨p?, hp?, rfl⟩⟩

theorem addData (h : b.Answers o room r) (d : Bytes) :
    (b.addData d).Answers o room { r with userData := r.userData ++ d } := by
  refine { h with userData := ?_ }
  show b.userData ++ d.take b.free = _
  rw [List.take_append, free, h.capacity, h.userData, List.length_take]
  congr 2
  omega

/-- A draft that can be finished has just what was asked for. -/
theorem finish {c : Contents} (h : b.Answers o room r) (hf : b.finish = .ok c) :
    c.Fits o ∧ c.userData = r.userData.take room ∧ c.userData.length = room ∧
      c.securityHeader = r.securityHeader?.getD [] ∧
      c.securityTrailer = r.securityTrailer?.getD [] ∧ c.ocf? = r.ocf? := by
  rw [Draft.finish] at hf
  split at hf
  · cases hf
  rename_i hfull
  obtain ⟨securityHeader, hheader, hf⟩ := bind_eq_ok_iff.mp hf
  obtain ⟨securityTrailer, htrailer, hf⟩ := bind_eq_ok_iff.mp hf
  obtain ⟨ocf?, hocf, hf⟩ := bind_eq_ok_iff.mp hf
  cases hf
  obtain ⟨h1, l1⟩ := h.securityHeader.get hheader
  obtain ⟨h2, l2⟩ := h.securityTrailer.get htrailer
  obtain ⟨h3, l3, l4⟩ := h.ocf.get (fun _ => Nat.zero_lt_succ 3) hocf
  have hlen : b.userData.length = room := by
    rw [free, h.capacity, Decidable.not_not] at hfull
    have := congrArg List.length h.userData
    rw [List.length_take] at this
    omega
  exact ⟨⟨l1, l2, l3, l4, h.fecfPresent⟩, h.userData, hlen, h1, h2, h3⟩

/-- A draft can be finished once all parts have been asked for and there is enough user data. -/
theorem exists_finish (h : b.Answers o room r) (hdata : room ≤ r.userData.length)
    (hheader : r.securityHeader?.isSome = true ∨ o.securityHeader = 0)
    (htrailer : r.securityTrailer?.isSome = true ∨ o.securityTrailer = 0)
    (hocf : o.ocfPresent = true → r.ocf?.isSome = true) : ∃ c, b.finish = .ok c := by
  have hfull : b.free = 0 := by
    rw [free, h.capacity, h.userData, List.length_take]
    omega
  rw [Draft.finish, if_neg (not_not_intro hfull), h.securityHeader.get_of_isSome hheader, ok_bind,
    h.securityTrailer.get_of_isSome htrailer, ok_bind, h.ocf.get_of_isSome hocf]
  exact ⟨_, rfl⟩

/-- A draft that was asked for the parts of a valid frame makes its bytes. -/
theorem exists_toBytes {f : FrameBytes} {added reserved userData : Bytes}
    (h : b.Answers f.overhead userData.length
      ⟨f.securityHeader.present?, f.securityTrailer.present?, f.ocf?, added⟩)
    (hv : f.isValid = true) (hadded : added.take userData.length = userData)
    (hdata : reserved ++ userData = f.dataField) :
    ∃ c, b.finish = .ok c ∧ c.toBytes f.headers reserved = f.bytes := by
  have hroom : userData.length ≤ added.length := by
    have := congrArg List.length hadded
    rw [List.length_take] at this
    omega
  have hocf (hp : f.overhead.ocfPresent = true) : f.ocf?.isSome = true := by
    rw [FrameBytes.ocf?_eq, if_pos hp]
    rfl
  obtain ⟨c, hc⟩ := h.exists_finish hroom
    (f.length_securityHeader ▸ f.securityHeader.present?_isSome_or)
    (f.length_securityTrailer ▸ f.securityTrailer.present?_isSome_or) hocf
  obtain ⟨hfits, huser, -, hheader, htrailer, hocf⟩ := h.finish hc
  rw [hadded] at huser
  exact ⟨c, hc, Contents.toBytes_eq_bytes hv (hheader.trans (Bytes.present?_getD _)) (huser ▸ hdata)
    (htrailer.trans (Bytes.present?_getD _)) hocf hfits.fecfPresent⟩

end Draft.Answers

end SpaceLink
