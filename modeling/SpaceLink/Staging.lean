import SpaceLink.Zones

/-!
# Frames under construction in memory

What the builders of all kinds of frame share, as it is in memory: a `Staging` is one buffer for the
whole frame, the places of the parts in it, and a record of which parts have been written. Every
write names the offsets it goes to, so that it stops the program where they are not in the buffer. A
`Machine` is what the builder of one kind offers on top of that.
-/

namespace SpaceLink

structure Staging where
  /-- The frame, with zeros where nothing has been written. -/
  buffer : Bytes
  zones : Zones
  /-- Where the user data begins, after what the data field has before it. -/
  userDataStart : Nat
  /-- How much user data there is so far. -/
  written : Nat
  securityHeaderSet : Bool
  securityTrailerSet : Bool
  ocfSet : Bool
deriving DecidableEq, Repr

namespace Staging

/-- A buffer that has not been written to. -/
def zeros? (length : Nat) : Option Bytes :=
  if length ≤ maxBytes then some (List.replicate length 0) else none

/-- Begins a frame of `length` bytes whose data field begins with `reserved` bytes that are not
user data. Parts of no bytes need no writing. -/
def create (a : Arithmetic) (length : Nat) (o : Overhead) (reserved : Nat) : Program Staging := do
  let zones ← Zones.compute a length o
  let userDataStart ← a.add zones.dataFieldStart reserved
  if zones.dataFieldEnd < userDataStart then
    let minimum ← a.sub (← a.add length userDataStart) zones.dataFieldEnd
    throw (Error.notEnoughData length minimum)
  else
    return {
      buffer := ← zeros? length
      zones, userDataStart
      written := 0
      securityHeaderSet := o.securityHeader = 0
      securityTrailerSet := o.securityTrailer = 0
      ocfSet := !o.ocfPresent }

variable (a : Arithmetic)

def free (s : Staging) : Option Nat := do
  a.sub (← a.sub s.zones.dataFieldEnd s.userDataStart) s.written

/-- Writes from one offset of the buffer up to another. -/
def write (start stop : Nat) (d : Bytes) (s : Staging) : Option Staging := do
  return { s with buffer := ← Bytes.overwrite? start stop d s.buffer }

/-- Writes as much of the bytes as fits, and tells how many do not. -/
def addData (d : Bytes) : Change Staging Nat := do
  let s ← get
  let count := min (← s.free a) d.length
  let start ← a.add s.userDataStart s.written
  let s ← s.write start (← a.add start count) (d.take count)
  set { s with written := ← a.add s.written count }
  return d.length - count

def setSecurityHeader (d : Bytes) : Change Staging Unit := do
  let s ← get
  let expected ← a.sub s.zones.dataFieldStart s.zones.securityHeaderStart
  checkLength .securityHeader expected d.length
  let s ← s.write s.zones.securityHeaderStart s.zones.dataFieldStart d
  set { s with securityHeaderSet := true }

def setSecurityTrailer (d : Bytes) : Change Staging Unit := do
  let s ← get
  let expected ← a.sub s.zones.securityTrailerEnd s.zones.dataFieldEnd
  checkLength .securityTrailer expected d.length
  let s ← s.write s.zones.dataFieldEnd s.zones.securityTrailerEnd d
  set { s with securityTrailerSet := true }

def setOcf (d : Bytes) : Change Staging Unit := do
  let s ← get
  match s.zones.ocfStart? with
  | none => throw (Error.fieldLength .ocf 0 d.length)
  | some start =>
    checkLength .ocf ocfLength d.length
    let s ← s.write start (← a.add start ocfLength) d
    set { s with ocfSet := true }

/-- There is no space left, and no part is missing. -/
def checkComplete (s : Staging) : Program Unit := do
  let free ← s.free a
  if free ≠ 0 then throw (Error.notFull free)
  else if !s.securityHeaderSet then throw (Error.fieldUnset .securityHeader)
  else if !s.securityTrailerSet then throw (Error.fieldUnset .securityTrailer)
  else if !s.ocfSet then throw (Error.fieldUnset .ocf)
  else return ()

/-- The frame, with the check of its bytes in the last two if there is to be one. -/
def finish (s : Staging) : Option Bytes :=
  if s.zones.fecfPresent then do
    let start ← a.sub s.buffer.length fecfLength
    let check := crc16 (← Bytes.between? 0 start s.buffer)
    Bytes.overwrite? start s.buffer.length (Bytes.ofNatBE fecfLength check) s.buffer
  else some s.buffer

end Staging

/-- What a builder offers. `M` is what it has in memory and `S` what it builds. -/
structure Machine (M Step S : Type) where
  /-- Makes a step. If it adds data, the answer is how many bytes did not fit. -/
  perform : Step → Change M (Option Nat)
  /-- How much user data still fits. -/
  free : M → Option Nat
  build : M → Program S

end SpaceLink
