import SpaceLink.Clcw
import SpaceLink.Checksum.Crc16

/-!
# The parts of a frame

A frame of any kind is its headers, a security header, the data field, a security trailer, the
operational control field and the frame error control field, in this order. An `Overhead` has the
lengths of all parts but the data field, which gets what they leave. `FrameBytes` are bytes long
enough for an overhead, so that every part is a slice inside them.

Lengths are numbers here, of any size. The decoders and builders that run add them up in machine words
(`Zones.compute`), which comes to the same if the sum is a word (`Zones.compute_agrees`).
-/

namespace SpaceLink

/-- The lengths in bytes of everything in a frame but its data field. -/
structure Overhead where
  /-- The primary header and what the kind of frame puts after it. -/
  headers : Nat
  securityHeader : Nat
  securityTrailer : Nat
  ocfPresent : Bool
  fecfPresent : Bool
deriving DecidableEq, Repr

namespace Overhead

variable (o : Overhead)

def leading : Nat := o.headers + o.securityHeader

def ocf : Nat := if o.ocfPresent then ocfLength else 0

def fecf : Nat := if o.fecfPresent then fecfLength else 0

def trailing : Nat := o.securityTrailer + o.ocf + o.fecf

/-- The length of everything but the data field. It need not be a machine word. -/
def total : Nat := o.leading + o.trailing

/-- What a frame of `length` bytes has left for its data field. -/
def room (length : Nat) : Except Error Nat :=
  if length < o.total then .error (.notEnoughData length o.total) else .ok (length - o.total)

theorem room_eq_ok_iff {length room : Nat} :
    o.room length = .ok room ↔ length = o.total + room := by
  unfold Overhead.room
  split
  · simp only [reduceCtorEq, false_iff]
    omega
  · simp only [Except.ok.injEq]
    omega

end Overhead

/-- Bytes that can hold an overhead. -/
structure FrameBytes where
  bytes : Bytes
  overhead : Overhead
  fits : overhead.total ≤ bytes.length
deriving DecidableEq, Repr

namespace FrameBytes

def ofBytes (d : Bytes) (o : Overhead) : Except Error FrameBytes :=
  if fits : o.total ≤ d.length then .ok { bytes := d, overhead := o, fits }
  else .error (.notEnoughData d.length o.total)

theorem ofBytes_eq_ok_iff {d : Bytes} {o : Overhead} {f : FrameBytes} :
    ofBytes d o = .ok f ↔ f.bytes = d ∧ f.overhead = o := by
  obtain ⟨bytes, overhead, fits⟩ := f
  unfold ofBytes
  split
  · simp only [Except.ok.injEq, mk.injEq]
    exact ⟨fun ⟨h, h'⟩ => ⟨h.symm, h'.symm⟩, fun ⟨h, h'⟩ => ⟨h.symm, h'.symm⟩⟩
  · simp only [reduceCtorEq, false_iff]
    rintro ⟨rfl, rfl⟩
    contradiction

variable (f : FrameBytes)

def dataFieldLength : Nat := f.bytes.length - f.overhead.total

def dataFieldStart : Nat := f.overhead.leading

def trailerStart : Nat := f.dataFieldStart + f.dataFieldLength

def ocfStart : Nat := f.trailerStart + f.overhead.securityTrailer

def fecfStart : Nat := f.ocfStart + f.overhead.ocf

theorem fecfStart_add_fecf : f.fecfStart + f.overhead.fecf = f.bytes.length := by
  have := f.fits
  simp only [fecfStart, ocfStart, trailerStart, dataFieldStart, dataFieldLength, Overhead.total,
    Overhead.trailing] at *
  omega

def headers : Bytes := f.bytes.take f.overhead.headers

def securityHeader : Bytes := Bytes.slice f.overhead.headers f.overhead.securityHeader f.bytes

def dataField : Bytes := Bytes.slice f.dataFieldStart f.dataFieldLength f.bytes

@[simp] theorem length_dataField : f.dataField.length = f.dataFieldLength := by
  have := f.fits
  simp only [dataField, Bytes.length_slice, dataFieldStart, dataFieldLength, Overhead.total] at *
  omega

def securityTrailer : Bytes := Bytes.slice f.trailerStart f.overhead.securityTrailer f.bytes

def ocf? : Option Bytes :=
  if f.overhead.ocfPresent then some (Bytes.slice f.ocfStart ocfLength f.bytes) else none

/-- The control word in the operational control field, if that is what it holds. -/
def clcw? : Option Clcw := f.ocf?.bind Clcw.decode

def fecf? : Option Nat :=
  if f.overhead.fecfPresent then
    some (Bytes.toNatBE (Bytes.slice f.fecfStart fecfLength f.bytes))
  else none

/-- What the frame error control field should be: the check of the bytes before it. -/
def computedFecf : Nat := crc16 (f.bytes.take f.fecfStart)

def isValid : Bool := f.fecf?.all (· == f.computedFecf)

/-- If checking is strict, refuses a frame that is not valid. -/
def checkFecf (strict : Bool) : Except Error Unit :=
  match f.fecf? with
  | some expected =>
    if strict && expected != f.computedFecf then .error (.fecf expected f.computedFecf)
    else .ok ()
  | none => .ok ()

end FrameBytes

/-- The version number, in the first two bits, is that of the expected kind of frame. It is
looked at before anything else, so that bytes of another kind are known for what they are even if
they are too few. -/
def checkVersion (d : Bytes) (expected minimum : Nat) : Except Error Unit :=
  match d with
  | [] => .error (.notEnoughData 0 minimum)
  | first :: _ =>
    let actual := bits first.toNat 6 2
    if actual ≠ expected then .error (.version expected actual)
    else if d.length < minimum then .error (.notEnoughData d.length minimum)
    else .ok ()

end SpaceLink
