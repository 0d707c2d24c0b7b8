import SpaceLink.FrameBytes
import SpaceLink.Steps

/-!
# Frames under construction

What the builders of all kinds of frame share. A `Part` has a declared length and is filled in
later; a `Draft` collects the user data and the parts that every kind of frame may have.
`Draft.finish` refuses a draft with space left or a part missing, and `Contents.toBytes` puts the
parts in their order. In memory the draft is one buffer, a `Staging` (`Draft.staged`).
-/

namespace SpaceLink

/-- A part of a frame with its declared length. -/
structure Part where
  length : Nat
  content? : Option Bytes
deriving DecidableEq, Repr

namespace Part

/-- A part of no bytes needs no filling in. -/
def declare (length : Nat) : Part :=
  { length, content? := if length = 0 then some [] else none }

def set (p : Part) (field : Field) (d : Bytes) : Except Error Part := do
  checkLength field p.length d.length
  return { p with content? := some d }

def get (p : Part) (field : Field) : Except Error Bytes :=
  match p.content? with
  | some d => .ok d
  | none => .error (.fieldUnset field)

/-- A part that the frame may be declared not to have. Such a frame takes no content for it, not
even the empty one. -/
def set? (p? : Option Part) (field : Field) (d : Bytes) : Except Error (Option Part) :=
  match p? with
  | some p => return some (← p.set field d)
  | none => .error (.fieldLength field 0 d.length)

def get? (p? : Option Part) (field : Field) : Except Error (Option Bytes) :=
  match p? with
  | some p => return some (← p.get field)
  | none => .ok none

end Part

structure Draft where
  /-- How much user data the frame carries. -/
  capacity : Nat
  userData : Bytes
  securityHeader : Part
  securityTrailer : Part
  ocf? : Option Part
  fecfPresent : Bool
deriving DecidableEq, Repr

structure Contents where
  securityHeader : Bytes
  userData : Bytes
  securityTrailer : Bytes
  ocf? : Option Bytes
  fecfPresent : Bool
deriving DecidableEq, Repr

namespace Draft

/-- Plans a frame of `length` bytes whose data field begins with `reserved` bytes that are not
user data. -/
def plan (length : Nat) (o : Overhead) (reserved : Nat) : Except Error Draft := do
  let room ← o.room length
  if room < reserved then .error (.notEnoughData length (length + reserved - room))
  else
    return {
      capacity := room - reserved
      userData := []
      securityHeader := Part.declare o.securityHeader
      securityTrailer := Part.declare o.securityTrailer
      ocf? := if o.ocfPresent then some (Part.declare ocfLength) else none
      fecfPresent := o.fecfPresent }

variable (b : Draft)

def free : Nat := b.capacity - b.userData.length

/-- How many of the bytes would not fit. -/
def leftover (d : Bytes) : Nat := d.length - b.free

/-- Takes as many of the bytes as fit. -/
def addData (d : Bytes) : Draft := { b with userData := b.userData ++ d.take b.free }

def setSecurityHeader (d : Bytes) : Except Error Draft :=
  return { b with securityHeader := ← b.securityHeader.set .securityHeader d }

def setSecurityTrailer (d : Bytes) : Except Error Draft :=
  return { b with securityTrailer := ← b.securityTrailer.set .securityTrailer d }

def setOcf (d : Bytes) : Except Error Draft :=
  return { b with ocf? := ← Part.set? b.ocf? .ocf d }

/-- The parts, if there is no space left and none is missing. -/
def finish : Except Error Contents := do
  if b.free ≠ 0 then .error (.notFull b.free)
  else
    let securityHeader ← b.securityHeader.get .securityHeader
    let securityTrailer ← b.securityTrailer.get .securityTrailer
    let ocf? ← Part.get? b.ocf? .ocf
    return {
      securityHeader, userData := b.userData, securityTrailer, ocf?, fecfPresent := b.fecfPresent }

end Draft

/-- The whole frame, given its headers and what its data field has before the user data. -/
def Contents.toBytes (c : Contents) (headers reserved : Bytes) : Bytes :=
  let checked := headers ++ c.securityHeader ++ reserved ++ c.userData ++ c.securityTrailer ++
    c.ocf?.getD []
  if c.fecfPresent then appendFecf checked else checked

end SpaceLink
