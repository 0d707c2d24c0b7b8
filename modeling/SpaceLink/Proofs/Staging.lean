import SpaceLink.Staging
import SpaceLink.Proofs.Draft
import SpaceLink.Proofs.Zones

/-!
# A draft in a buffer

`Draft.staged` is what a draft looks like in memory: its parts in their order, with zeros where
nothing has been written. What is done to the buffer is what is done to the draft, and it never goes
beyond the end of the buffer, nor out of the words. The draft has what it was asked for
(`Draft.Answers`), so that all parts are as long as declared.
-/

namespace SpaceLink

attribute [ext] Staging

/-- Nothing but `old` is replaced. -/
theorem Bytes.overwrite?_append {d part : Bytes} (before old after : Bytes) {start stop : Nat}
    (hd : d = before ++ (old ++ after)) (hstart : start = before.length)
    (hstop : stop = start + part.length) (hlength : old.length = part.length) :
    overwrite? start stop part d = some (before ++ (part ++ after)) := by
  subst hd hstart hstop
  have hend : before.length + part.length ≤ (before ++ (old ++ after)).length := by
    simp only [List.length_append]
    omega
  rw [overwrite?, if_pos ⟨Nat.le_add_right _ _, hend, Nat.add_sub_cancel_left ..⟩, List.take_left,
    ← List.drop_drop, List.drop_left, ← hlength, List.drop_left, List.append_assoc]

/-- The buffer after a write, taken apart in the same way as before it. -/
theorem Staging.write_eq {s : Staging} (before old after : Bytes) {part buffer : Bytes}
    {start stop : Nat} (hold : s.buffer = before ++ (old ++ after))
    (hnew : buffer = before ++ (part ++ after)) (hstart : start = before.length)
    (hstop : stop = start + part.length) (hlength : old.length = part.length) :
    s.write start stop part = some { s with buffer } := by
  rw [write, Bytes.overwrite?_append before old after hold hstart hstop hlength, hnew]
  rfl

def zeros (n : Nat) : Bytes := List.replicate n 0

@[simp] theorem length_zeros (n : Nat) : (zeros n).length = n := List.length_replicate

theorem zeros_append (m n : Nat) : zeros m ++ zeros n = zeros (m + n) :=
  List.replicate_append_replicate

namespace Part

/-- The bytes of the part in the buffer. -/
def region (p : Part) : Bytes := p.content?.getD (zeros p.length)

theorem region_declare (len : Nat) : (declare len).region = zeros len := by
  rw [region, declare]
  dsimp only
  split
  · subst_vars
    rfl
  · rfl

theorem isSome_declare (len : Nat) : (declare len).content?.isSome = decide (len = 0) := by
  rw [declare]
  split <;> simp [*]

section

variable {α β : Type} {stops : Prop} {R : α → β → Prop} {field : Field} {q : Program α}

/-- A part is set in memory exactly if it has contents. -/
theorem get_agrees (p : Part) {g : Bytes → Except Error β}
    (hg : ∀ d, p.get field = .ok d → q.Agrees stops R (g d)) :
    Program.Agrees stops R
      (if !p.content?.isSome then throw (Error.fieldUnset field) else q) (p.get field >>= g) := by
  cases hp : p.content? with
  | none =>
    rw [get, hp]
    exact .error _
  | some d =>
    have hget : p.get field = .ok d := get_eq_ok_iff.mpr hp
    rw [hget]
    exact hg d hget

theorem get?_agrees {p? : Option Part} {g : Option Bytes → Except Error β}
    (hg : ∀ d?, get? p? field = .ok d? → q.Agrees stops R (g d?)) :
    Program.Agrees stops R
      (if !p?.all (·.content?.isSome) then throw (Error.fieldUnset field) else q)
      (get? p? field >>= g) := by
  cases p? with
  | none => exact hg none rfl
  | some p =>
    rw [get?, bind_assoc]
    exact p.get_agrees fun d hd => hg (some d) (by rw [get?, hd]; rfl)

end

/-- What a part is told has the length of the part. -/
theorem Told.length_region {p : Part} {len : Nat} {told? : Option Bytes} (h : p.Told len told?) :
    p.region.length = len := by
  rw [region, h.content]
  cases told? with
  | some d => exact h.fits d rfl
  | none =>
    rw [Option.none_or, h.length]
    split
    · exact ‹len = 0›.symm
    · exact length_zeros len

end Part

namespace Draft

variable (b : Draft)

def overhead (headers : Nat) : Overhead where
  headers
  securityHeader := b.securityHeader.length
  securityTrailer := b.securityTrailer.length
  ocfPresent := b.ocf?.isSome
  fecfPresent := b.fecfPresent

def ocfRegion : Bytes := (b.ocf?.map (·.region)).getD []

/-- What the buffer has up to the end of the data field, given headers and what the data field has
before the user data. -/
def leading (headers reserved : Bytes) : Bytes :=
  headers ++ (b.securityHeader.region ++ (reserved ++ (b.userData ++ zeros b.free)))

/-- What the buffer has after the data field. -/
def trailing : Bytes :=
  b.securityTrailer.region ++ (b.ocfRegion ++ zeros (b.overhead 0).fecf)

/-- The draft in a buffer. -/
def staged (headers reserved : Bytes) : Staging where
  buffer := b.leading headers reserved ++ b.trailing
  zones := (b.overhead headers.length).zones (reserved.length + b.capacity)
  userDataStart := headers.length + b.securityHeader.length + reserved.length
  written := b.userData.length
  securityHeaderSet := b.securityHeader.content?.isSome
  securityTrailerSet := b.securityTrailer.content?.isSome
  ocfSet := b.ocf?.all (·.content?.isSome)

/-- The length of the buffer. -/
def extent (headers reserved : Bytes) : Nat :=
  (b.overhead headers.length).total + (reserved.length + b.capacity)

section

variable (headers reserved : Bytes)

theorem length_headers_le_extent : headers.length ≤ b.extent headers reserved :=
  Nat.le_trans (Nat.le_add_right _ _) (Nat.le_trans (Nat.le_add_right _ _) (Nat.le_add_right _ _))

theorem dataFieldStart_le_extent :
    (b.staged headers reserved).zones.dataFieldStart + reserved.length ≤
      b.extent headers reserved := by
  rw [extent, Overhead.total]
  show (b.overhead headers.length).leading + _ ≤ _
  omega

theorem staged_dataFieldStart : (b.staged headers reserved).zones.dataFieldStart =
    (b.staged headers reserved).zones.securityHeaderStart + b.securityHeader.length := rfl

theorem staged_dataFieldEnd : (b.staged headers reserved).zones.dataFieldEnd =
    headers.length + b.securityHeader.length + (reserved.length + b.capacity) := rfl

theorem staged_securityTrailerEnd : (b.staged headers reserved).zones.securityTrailerEnd =
    (b.staged headers reserved).zones.dataFieldEnd + b.securityTrailer.length := rfl

theorem staged_ocfStart? : (b.staged headers reserved).zones.ocfStart? =
    if b.ocf?.isSome then some (b.staged headers reserved).zones.securityTrailerEnd else none := rfl

theorem staged_fecfPresent : (b.staged headers reserved).zones.fecfPresent = b.fecfPresent := rfl

theorem staged_userDataStart : (b.staged headers reserved).userDataStart =
    headers.length + b.securityHeader.length + reserved.length := rfl

theorem staged_written : (b.staged headers reserved).written = b.userData.length := rfl

end

/-- What is written before the security header is in the headers. -/
theorem staged_writeHeaders {headers part : Bytes} (before old after reserved : Bytes)
    {start stop : Nat} (hheaders : headers = before ++ (old ++ after))
    (hstart : start = before.length) (hstop : stop = start + part.length)
    (hlength : old.length = part.length) :
    (b.staged headers reserved).write start stop part =
      some (b.staged (before ++ (part ++ after)) reserved) := by
  have hbuffer (part : Bytes) : (b.staged (before ++ (part ++ after)) reserved).buffer =
      before ++ (part ++ (after ++ (b.securityHeader.region ++
        (reserved ++ (b.userData ++ zeros b.free))) ++ b.trailing)) := by
    simp only [staged, leading, List.append_assoc]
  have hlengths : (before ++ (old ++ after)).length = (before ++ (part ++ after)).length := by
    simp only [List.length_append, hlength]
  subst hheaders
  rw [Staging.write_eq _ _ _ (hbuffer old) (hbuffer part) hstart hstop hlength]
  simp only [staged, hlengths]

namespace Answers

variable {b : Draft} {o : Overhead} {room : Nat} {r : Request} {headers reserved d : Bytes}
  (a : Arithmetic)

theorem length_userData (h : b.Answers o room r) : b.userData.length + b.free = b.capacity := by
  have hle : b.userData.length ≤ b.capacity := by
    rw [h.userData, h.capacity, List.length_take]
    exact Nat.min_le_left ..
  rw [Draft.free]
  omega

theorem length_ocfRegion (h : b.Answers o room r) : b.ocfRegion.length = (b.overhead 0).ocf := by
  have hocf := h.ocf
  rw [ocfRegion, Overhead.ocf, overhead]
  cases hp : b.ocf? with
  | none => rfl
  | some p =>
    rw [hp] at hocf
    exact hocf.2.length_region

theorem length_securityHeader (h : b.Answers o room r) :
    b.securityHeader.region.length = b.securityHeader.length :=
  h.securityHeader.length_region.trans h.securityHeader.length.symm

theorem length_securityTrailer (h : b.Answers o room r) :
    b.securityTrailer.region.length = b.securityTrailer.length :=
  h.securityTrailer.length_region.trans h.securityTrailer.length.symm

theorem length_leading (h : b.Answers o room r) :
    (b.leading headers reserved).length = (b.staged headers reserved).zones.dataFieldEnd := by
  have hdata := h.length_userData
  rw [staged_dataFieldEnd]
  simp only [leading, List.length_append, length_zeros, h.length_securityHeader]
  omega

theorem length_buffer (h : b.Answers o room r) :
    (b.staged headers reserved).buffer.length = b.extent headers reserved := by
  have htrailing : b.trailing.length = (b.overhead headers.length).trailing := by
    simp only [trailing, List.length_append, length_zeros, h.length_ocfRegion,
      h.length_securityTrailer, ← Nat.add_assoc]
    rfl
  show (b.leading headers reserved ++ b.trailing).length = _
  rw [List.length_append, h.length_leading, htrailing, extent, Overhead.total]
  show (b.overhead headers.length).leading + (reserved.length + b.capacity) + _ = _
  omega

theorem overhead_eq (h : b.Answers o room r) : b.overhead o.headers = o := by
  have hocf : b.ocf?.isSome = o.ocfPresent := by
    have hocf := h.ocf
    cases hp : b.ocf? with
    | none => exact (hp ▸ hocf).1.symm
    | some p => exact (hp ▸ hocf).1.symm
  rw [overhead, h.securityHeader.length, h.securityTrailer.length, h.fecfPresent, hocf]

theorem extent_eq (h : b.Answers o room r) (hheaders : headers.length = o.headers) :
    b.extent headers reserved = o.total + (reserved.length + room) := by
  rw [extent, hheaders, h.overhead_eq, h.capacity]

theorem staged_free (h : b.Answers o room r) :
    (b.staged headers reserved).free a = some b.free := by
  have hdata := h.length_userData
  rw [Staging.free, staged_userDataStart, staged_dataFieldEnd, staged_written,
    a.sub_of_le (by omega), Option.bind_eq_bind, Option.bind_some, a.sub_of_le (by omega)]
  congr 1
  omega

/-- Data is written to where the free space begins. -/
theorem staged_writeData (h : b.Answers o room r) (headers reserved : Bytes) {d : Bytes}
    (hd : d.length ≤ b.free) :
    let s := b.staged headers reserved
    s.write (s.userDataStart + s.written) (s.userDataStart + s.written + d.length) d =
      some { s with buffer := ((b.addData d).staged headers reserved).buffer } := by
  intro s
  let before := headers ++ (b.securityHeader.region ++ (reserved ++ b.userData))
  have hadded : (b.addData d).userData = b.userData ++ d := by
    rw [Draft.addData, List.take_of_length_le hd]
  have hfree : d.length + (b.addData d).free = b.free := by
    have hcapacity : (b.addData d).capacity = b.capacity := rfl
    rw [Draft.free] at hd ⊢
    rw [Draft.free, hadded, List.length_append, hcapacity]
    omega
  have hstart : s.userDataStart + s.written = before.length := by
    rw [staged_userDataStart, staged_written]
    simp only [before, List.length_append, h.length_securityHeader]
    omega
  refine Staging.write_eq before (zeros d.length) (zeros (b.addData d).free ++ b.trailing) ?_ ?_
    hstart rfl (length_zeros _)
  · rw [← List.append_assoc (zeros _), zeros_append, hfree]
    simp only [s, before, staged, leading, List.append_assoc]
  · show headers ++ (b.securityHeader.region ++ (reserved ++ ((b.addData d).userData ++
      zeros (b.addData d).free))) ++ b.trailing = _
    simp only [hadded, before, List.append_assoc]

theorem on_addData (h : b.Answers o room r) (d : Bytes)
    (hc : b.extent headers reserved < wordSize) :
    (Staging.addData a d).on (b.staged headers reserved) =
      some (.ok (b.leftover d), (b.addData d).staged headers reserved) := by
  have hdata := h.length_userData
  have htaken : d.take (min b.free d.length) = d.take b.free := List.take_eq_take_min.symm
  have hcount : (d.take b.free).length = min b.free d.length := List.length_take
  have hadded : b.addData (d.take b.free) = b.addData d := by
    rw [Draft.addData, List.take_take, Nat.min_self, ← Draft.addData]
  have hend : (b.staged headers reserved).userDataStart + (b.staged headers reserved).written +
      b.free ≤ b.extent headers reserved := by
    rw [← h.length_buffer, staged_userDataStart, staged_written]
    show _ ≤ (b.leading headers reserved ++ b.trailing).length
    rw [List.length_append, h.length_leading, staged_dataFieldEnd]
    omega
  have hwrite := h.staged_writeData headers reserved (d := d.take b.free) (by omega)
  rw [hcount, hadded] at hwrite
  rw [Staging.addData, Change.on_get_bind, h.staged_free, Change.on_some_bind]
  dsimp only
  rw [a.add_of_lt (by omega), Change.on_some_bind, a.add_of_lt (by omega), Change.on_some_bind,
    htaken, hwrite, Change.on_some_bind]
  have hwritten : a.add (b.staged headers reserved).written (min b.free d.length) =
      some (b.addData d).userData.length := by
    rw [a.add_of_lt (by omega), Draft.addData, List.length_append, hcount]
    rfl
  have hleft : d.length - min b.free d.length = b.leftover d := by
    rw [leftover]
    omega
  dsimp only
  rw [hwritten, Change.on_some_bind, Change.on_set_bind, Change.on_pure, hleft]
  rfl

/-- Adding data takes from the space that is left. -/
theorem staged_addData (h : b.Answers o room r) (d : Bytes)
    (hc : b.extent headers reserved < wordSize) :
    Change.Agrees (fun s b' => s = b'.staged headers reserved) (b.staged headers reserved)
      (b.leftover d) ((Staging.addData a d).on (b.staged headers reserved)) (.ok (b.addData d)) := by
  rw [h.on_addData a d hc]
  exact .ok rfl

theorem staged_writeReserved (h : b.Answers o room r) {part : Bytes}
    (hlength : reserved.length = part.length) :
    (b.staged headers reserved).write (b.staged headers reserved).zones.dataFieldStart
        ((b.staged headers reserved).zones.dataFieldStart + part.length) part =
      some (b.staged headers part) := by
  have hbuffer (part : Bytes) : (b.staged headers part).buffer =
      headers ++ b.securityHeader.region ++ (part ++ (b.userData ++ zeros b.free ++ b.trailing)) := by
    simp only [staged, leading, List.append_assoc]
  have hstart : (b.staged headers reserved).zones.dataFieldStart =
      (headers ++ b.securityHeader.region).length := by
    rw [List.length_append, h.length_securityHeader]
    rfl
  rw [Staging.write_eq _ _ _ (hbuffer reserved) (hbuffer part) hstart rfl hlength]
  simp only [staged, hlength]

/-- Setting a part writes it to its place. -/
theorem staged_setSecurityHeader (h : b.Answers o room r) (d : Bytes) :
    Change.Agrees (fun s b' => s = b'.staged headers reserved) (b.staged headers reserved) ()
      ((Staging.setSecurityHeader a d).on (b.staged headers reserved)) (b.setSecurityHeader d) := by
  have hexpected : a.sub (b.staged headers reserved).zones.dataFieldStart
      (b.staged headers reserved).zones.securityHeaderStart = some b.securityHeader.length := by
    rw [staged_dataFieldStart, a.sub_of_le (Nat.le_add_right _ _), Nat.add_sub_cancel_left]
  rw [Staging.setSecurityHeader, Change.on_get_bind, hexpected, Change.on_some_bind,
    Draft.setSecurityHeader, Part.set, bind_assoc]
  refine .bind_lift fun _ hd => ?_
  have hlength := checkLength_eq_ok_iff.mp hd
  have hwrite : (b.staged headers reserved).write
      (b.staged headers reserved).zones.securityHeaderStart
      (b.staged headers reserved).zones.dataFieldStart d =
        some { b.staged headers reserved with
          buffer := headers ++ (d ++ (reserved ++ (b.userData ++ zeros b.free))) ++ b.trailing } := by
    refine Staging.write_eq headers b.securityHeader.region
      (reserved ++ (b.userData ++ zeros b.free) ++ b.trailing) ?_ ?_ rfl
      (congrArg (headers.length + ·) hlength) (h.length_securityHeader.trans hlength)
    · simp only [staged, leading, List.append_assoc]
    · simp only [List.append_assoc]
  rw [hwrite, Change.on_some_bind]
  exact .ok rfl

theorem staged_setSecurityTrailer (h : b.Answers o room r) (d : Bytes) :
    Change.Agrees (fun s b' => s = b'.staged headers reserved) (b.staged headers reserved) ()
      ((Staging.setSecurityTrailer a d).on (b.staged headers reserved))
      (b.setSecurityTrailer d) := by
  have hexpected : a.sub (b.staged headers reserved).zones.securityTrailerEnd
      (b.staged headers reserved).zones.dataFieldEnd = some b.securityTrailer.length := by
    rw [staged_securityTrailerEnd, a.sub_of_le (Nat.le_add_right _ _), Nat.add_sub_cancel_left]
  rw [Staging.setSecurityTrailer, Change.on_get_bind, hexpected, Change.on_some_bind,
    Draft.setSecurityTrailer, Part.set, bind_assoc]
  refine .bind_lift fun _ hd => ?_
  have hlength := checkLength_eq_ok_iff.mp hd
  have hwrite : (b.staged headers reserved).write (b.staged headers reserved).zones.dataFieldEnd
      (b.staged headers reserved).zones.securityTrailerEnd d =
        some { b.staged headers reserved with
          buffer := b.leading headers reserved ++ (d ++ (b.ocfRegion ++ zeros (b.overhead 0).fecf)) } := by
    rw [staged_securityTrailerEnd]
    exact Staging.write_eq _ b.securityTrailer.region _ rfl rfl h.length_leading.symm
      (congrArg (_ + ·) hlength) (h.length_securityTrailer.trans hlength)
  rw [hwrite, Change.on_some_bind]
  exact .ok rfl

theorem staged_setOcf (h : b.Answers o room r) (d : Bytes)
    (hc : b.extent headers reserved < wordSize) :
    Change.Agrees (fun s b' => s = b'.staged headers reserved) (b.staged headers reserved) ()
      ((Staging.setOcf a d).on (b.staged headers reserved)) (b.setOcf d) := by
  have hocf := h.ocf
  rw [Staging.setOcf, Change.on_get_bind, Draft.setOcf, staged_ocfStart?]
  cases hp : b.ocf? with
  | none => exact .error _
  | some p =>
    rw [hp] at hocf
    have hold : b.ocfRegion = p.region := by rw [ocfRegion, hp, Option.map_some, Option.getD_some]
    have hbefore : (b.staged headers reserved).zones.securityTrailerEnd =
        (b.leading headers reserved ++ b.securityTrailer.region).length := by
      rw [staged_securityTrailerEnd, List.length_append, h.length_leading,
        h.length_securityTrailer]
    have hextent : (b.staged headers reserved).zones.securityTrailerEnd + ocfLength ≤
        b.extent headers reserved := by
      rw [← h.length_buffer, hbefore]
      simp only [staged, trailing, hold, List.length_append, hocf.2.length_region]
      omega
    rw [Part.set?, Part.set, hocf.2.length, bind_assoc, bind_assoc]
    dsimp only [Option.isSome]
    rw [if_pos rfl]
    refine .bind_lift fun _ hd => ?_
    have hlength := checkLength_eq_ok_iff.mp hd
    have hwrite : (b.staged headers reserved).write
        (b.staged headers reserved).zones.securityTrailerEnd
        ((b.staged headers reserved).zones.securityTrailerEnd + ocfLength) d =
          some { b.staged headers reserved with
            buffer := b.leading headers reserved ++ (b.securityTrailer.region ++ (d ++
              zeros (b.overhead 0).fecf)) } := by
      refine Staging.write_eq (b.leading headers reserved ++ b.securityTrailer.region) p.region
        (zeros (b.overhead 0).fecf) ?_ ?_ hbefore
        (congrArg (_ + ·) hlength) (hocf.2.length_region.trans hlength)
      · rw [staged, trailing, hold, List.append_assoc]
      · rw [List.append_assoc]
    rw [a.add_of_lt (by omega), Change.on_some_bind, hwrite, Change.on_some_bind]
    refine .ok ?_
    simp only [staged, overhead, hp]
    rfl

/-- A draft is complete in memory exactly if it can be finished. -/
theorem staged_checkComplete (h : b.Answers o room r) {stops : Prop} :
    ((b.staged headers reserved).checkComplete a).Agrees stops (fun _ _ => True) b.finish := by
  rw [Staging.checkComplete, h.staged_free, some_bind, Draft.finish]
  refine .ite (fun _ => .error _) fun _ => ?_
  refine b.securityHeader.get_agrees fun _ _ => b.securityTrailer.get_agrees fun _ _ => ?_
  exact Part.get?_agrees fun _ _ => .ok trivial

end Answers

/-- There are only zeros in the buffer of a draft that has not been told anything. -/
theorem staged_declare (o : Overhead) (capacity reserved : Nat) :
    staged {
        capacity, userData := [], securityHeader := .declare o.securityHeader
        securityTrailer := .declare o.securityTrailer
        ocf? := if o.ocfPresent then some (.declare ocfLength) else none
        fecfPresent := o.fecfPresent } (zeros o.headers) (zeros reserved) = {
      buffer := zeros (o.total + (reserved + capacity)), zones := o.zones (reserved + capacity)
      userDataStart := o.leading + reserved, written := 0
      securityHeaderSet := o.securityHeader = 0, securityTrailerSet := o.securityTrailer = 0
      ocfSet := !o.ocfPresent } := by
  obtain ⟨headers, securityHeader, securityTrailer, ocfPresent, fecfPresent⟩ := o
  ext1
  case securityHeaderSet => exact Part.isSome_declare securityHeader
  case securityTrailerSet => exact Part.isSome_declare securityTrailer
  case ocfSet => cases ocfPresent <;> rfl
  case zones =>
    simp only [staged, length_zeros]
    cases ocfPresent <;> rfl
  case userDataStart =>
    simp only [staged, length_zeros]
    rfl
  case written => rfl
  case buffer =>
    cases ocfPresent <;>
      simp [staged, leading, trailing, overhead, ocfRegion, Draft.free, Part.region_declare,
        zeros_append, Overhead.total, Overhead.leading, Overhead.trailing, Overhead.ocf,
        Overhead.fecf] <;>
      congr 1 <;> omega

/-- A frame is planned in memory if it is planned. The lengths of all that is not user data have to be
a word together, and the buffer one that memory holds. -/
theorem create_agrees (a : Arithmetic) (o : Overhead) (reserved : Nat) {length : Nat} {stops : Prop}
    (hlength : length < wordSize) (hwrapping : a = .wrapping → o.total + reserved < wordSize)
    (hstops : maxBytes < o.total + reserved ∨ maxBytes < length → stops) :
    (Staging.create a length o reserved).Agrees stops
      (fun s b => length ≤ maxBytes ∧ s = b.staged (zeros o.headers) (zeros reserved))
      (plan length o reserved) := by
  have hword := two_mul_maxBytes
  have hleading : o.leading ≤ o.total := Nat.le_add_right _ _
  refine (Zones.compute_agrees_room a hlength (fun h => by have := hwrapping h; omega)
    fun h => hstops (.inl (by omega))).bind fun z room hroom hz => ?_
  rw [Overhead.room_eq_ok_iff] at hroom
  subst hz
  rw [show (o.zones room).dataFieldStart = o.leading from rfl,
    show (o.zones room).dataFieldEnd = o.leading + room from rfl]
  refine .bind_add (fun h => by have := hwrapping h; omega) (fun h => hstops (.inl (by omega)))
    fun hstart => ?_
  by_cases hshort : room < reserved
  · rw [if_pos (by omega), if_pos hshort]
    have hminimum : length + (o.leading + reserved) - (o.leading + room) =
        length + reserved - room := by omega
    refine .bind_add_sub hlength hstart (by omega) (fun h => by have := hwrapping h; omega)
      (fun _ h => hstops (by omega)) ?_
    rw [hminimum]
    exact .error _
  · rw [if_neg (by omega), if_neg hshort, Staging.zeros?]
    by_cases hmemory : length ≤ maxBytes
    · rw [if_pos hmemory, some_bind]
      refine .ok ⟨hmemory, ?_⟩
      rw [staged_declare, Nat.add_sub_cancel' (Nat.not_lt.mp hshort), ← hroom]
      rfl
    · rw [if_neg hmemory]
      exact .stop (hstops (.inr (Nat.not_le.mp hmemory)))

/-- The buffer of a complete draft has the parts of the frame. -/
theorem staged_buffer {b : Draft} {c : Contents} (headers reserved : Bytes)
    (h : b.finish = .ok c) :
    b.fecfPresent = c.fecfPresent ∧
      (b.staged headers reserved).buffer =
        headers ++ c.securityHeader ++ reserved ++ c.userData ++ c.securityTrailer ++
          c.ocf?.getD [] ++ zeros (if c.fecfPresent then fecfLength else 0) := by
  rw [finish] at h
  split at h
  · cases h
  rename_i hfull
  obtain ⟨securityHeader, hheader, h⟩ := bind_eq_ok_iff.mp h
  obtain ⟨securityTrailer, htrailer, h⟩ := bind_eq_ok_iff.mp h
  obtain ⟨ocf?, hocf, h⟩ := bind_eq_ok_iff.mp h
  cases h
  have hregion : b.ocfRegion = ocf?.getD [] := by
    rw [ocfRegion]
    cases hp : b.ocf? with
    | none =>
      rw [hp] at hocf
      cases hocf
      rfl
    | some p =>
      rw [hp] at hocf
      obtain ⟨d, hd, hocf⟩ := bind_eq_ok_iff.mp hocf
      cases hocf
      rw [Option.map_some, Option.getD_some, Part.region, Part.get_eq_ok_iff.mp hd]
      rfl
  refine ⟨rfl, ?_⟩
  simp only [staged, leading, trailing, Part.region, Part.get_eq_ok_iff.mp hheader,
    Part.get_eq_ok_iff.mp htrailer, hregion, Decidable.not_not.mp hfull, Option.getD_some,
    List.append_assoc]
  rfl

/-- The check goes to the last two bytes. -/
theorem staged_finish {b : Draft} {c : Contents} (a : Arithmetic) (headers reserved : Bytes)
    (h : b.finish = .ok c) :
    (b.staged headers reserved).finish a = some (c.toBytes headers reserved) := by
  obtain ⟨hpresent, hbuffer⟩ := staged_buffer headers reserved h
  rw [Staging.finish, Contents.toBytes, staged_fecfPresent, hpresent]
  generalize headers ++ c.securityHeader ++ reserved ++ c.userData ++ c.securityTrailer ++
    c.ocf?.getD [] = checked at hbuffer ⊢
  cases hp : c.fecfPresent with
  | false =>
    rw [hp] at hbuffer
    rw [hbuffer]
    exact congrArg some (List.append_nil checked)
  | true =>
    rw [hp, if_pos rfl] at hbuffer
    have hlength : (b.staged headers reserved).buffer.length = checked.length + fecfLength := by
      rw [hbuffer, List.length_append, length_zeros]
    have hchecked : Bytes.between? 0 checked.length (b.staged headers reserved).buffer =
        some checked := by
      rw [Bytes.between?_of_le (Nat.zero_le _) (by omega), Bytes.between, hbuffer, List.take_left]
      rfl
    have hwrite : Bytes.overwrite? checked.length (checked.length + fecfLength)
        (Bytes.ofNatBE fecfLength (crc16 checked)) (b.staged headers reserved).buffer =
          some (appendFecf checked) := by
      rw [appendFecf, ← List.append_nil (Bytes.ofNatBE _ _)]
      refine Bytes.overwrite?_append checked (zeros fecfLength) [] ?_ rfl ?_ ?_
      · rw [hbuffer, List.append_nil]
      · rw [List.append_nil, Bytes.length_ofNatBE]
      · rw [List.append_nil, Bytes.length_ofNatBE, length_zeros]
    rw [if_pos rfl, if_pos rfl, hlength, a.sub_of_le (Nat.le_add_left _ _), Nat.add_sub_cancel]
    simp only [Option.bind_eq_bind, Option.bind_some, hchecked, hwrite]

end Draft

end SpaceLink
