import SpaceLink.FrameBytes
import SpaceLink.Words

/-!
# The places of the parts

A frame is stored as its bytes, the places where its parts meet (`Zones`), and what its kind adds.
The places are computed in words, from the first byte up to the data field and from the last one
back to it. They are those of the `FrameBytes` unless the lengths together are no word.
-/

namespace SpaceLink

/-- The places where the parts of a frame begin or end. -/
structure Zones where
  securityHeaderStart : Nat
  dataFieldStart : Nat
  dataFieldEnd : Nat
  securityTrailerEnd : Nat
  ocfStart? : Option Nat
  fecfPresent : Bool
deriving DecidableEq, Repr

namespace Zones

/-- The places for the parts of a frame of `length` bytes. -/
def compute (a : Arithmetic) (length : Nat) (o : Overhead) : Program Zones := do
  let dataFieldStart ← a.add o.headers o.securityHeader
  let trailing ← a.add (← a.add o.securityTrailer o.ocf) o.fecf
  let minimum ← a.add dataFieldStart trailing
  if length < minimum then throw (Error.notEnoughData length minimum)
  else
    let dataFieldEnd ← a.sub length trailing
    let securityTrailerEnd ← a.add dataFieldEnd o.securityTrailer
    return {
      securityHeaderStart := o.headers
      dataFieldStart, dataFieldEnd, securityTrailerEnd
      ocfStart? := if o.ocfPresent then some securityTrailerEnd else none
      fecfPresent := o.fecfPresent }

variable (z : Zones) (a : Arithmetic) (d : Bytes)

/-! The parts, cut out of the bytes. -/

def securityHeader : Option Bytes := Bytes.between? z.securityHeaderStart z.dataFieldStart d

def dataField : Option Bytes := Bytes.between? z.dataFieldStart z.dataFieldEnd d

def securityTrailer : Option Bytes := Bytes.between? z.dataFieldEnd z.securityTrailerEnd d

def ocf? : Option (Option Bytes) :=
  match z.ocfStart? with
  | some start => do return some (← Bytes.between? start (← a.add start ocfLength) d)
  | none => some none

/-- The number in the last two bytes. -/
def fecf? : Option (Option Nat) :=
  if z.fecfPresent then do
    let start ← a.sub d.length fecfLength
    return some (Bytes.toNatBE (← Bytes.between? start d.length d))
  else some none

/-- Whether the frame error control field is the check of the bytes before it. If checking is
strict, it has to be. -/
def checkFecf (strict : Bool) : Program Bool := do
  match ← z.fecf? a d with
  | none => return true
  | some expected =>
    let computed := crc16 (← Bytes.between? 0 (← a.sub d.length fecfLength) d)
    if strict && expected != computed then throw (Error.fecf expected computed)
    else return expected == computed

end Zones

/-- The places of the parts around a data field of `room` bytes. -/
def Overhead.zones (o : Overhead) (room : Nat) : Zones where
  securityHeaderStart := o.headers
  dataFieldStart := o.leading
  dataFieldEnd := o.leading + room
  securityTrailerEnd := o.leading + room + o.securityTrailer
  ocfStart? := if o.ocfPresent then some (o.leading + room + o.securityTrailer) else none
  fecfPresent := o.fecfPresent

def FrameBytes.zones (f : FrameBytes) : Zones := f.overhead.zones f.dataFieldLength

/-- A frame as it is stored, with what its kind adds. -/
structure Stored (Details : Type) where
  bytes : Bytes
  zones : Zones
  isValid : Bool
  details : Details
deriving DecidableEq, Repr

def FrameBytes.stored {Details : Type} (f : FrameBytes) (details : Details) : Stored Details where
  bytes := f.bytes
  zones := f.zones
  isValid := f.isValid
  details

end SpaceLink
