import SpaceLink.Tm.Header
import SpaceLink.FrameBytes

/-!
# TM frames

`Frame.decode` reads a frame from its bytes and the parameters agreed for the physical channel.
The secondary header, whose first byte tells its length, and the operational control field are
announced by the primary header.
-/

namespace SpaceLink.Tm

/-- What the bytes of a frame do not tell about it. -/
structure Config where
  fecfPresent : Bool := true
  securityHeaderLength : Nat := 0
  securityTrailerLength : Nat := 0
  /-- A frame whose error control field does not match is an error rather than invalid. -/
  strict : Bool := false
deriving DecidableEq, Repr

structure Frame extends FrameBytes where
  header : Header
deriving DecidableEq, Repr

/-- Length of the secondary header; its first byte holds it, reduced by one, in the low six
bits. -/
def secondaryHeaderLength (h : Header) (d : Bytes) : Except Error Nat :=
  if h.secondaryHeaderPresent then
    match d[headerLength]? with
    | some id => .ok (bits id.toNat 0 6 + 1)
    | none => .error (.notEnoughData d.length (headerLength + 1))
  else .ok 0

/-- The first header pointer points into the data field, unless it has no meaning or does not
point. -/
def checkPointer (h : Header) (zoneLength : Nat) : Except Error Unit :=
  if !h.sync && !h.pointerIsSentinel && zoneLength ≤ h.firstHeaderPointer then
    .error (.pointer .firstHeaderPointer h.firstHeaderPointer zoneLength)
  else .ok ()

namespace Frame

def decode (d : Bytes) (config : Config) : Except Error Frame := do
  checkVersion d version headerLength
  match Header.decode d with
  | none => .error (.notEnoughData d.length headerLength)
  | some header =>
    let secondary ← secondaryHeaderLength header d
    let framed ← FrameBytes.ofBytes d {
      headers := headerLength + secondary
      securityHeader := config.securityHeaderLength
      securityTrailer := config.securityTrailerLength
      ocfPresent := header.ocfPresent
      fecfPresent := config.fecfPresent }
    checkPointer header framed.dataFieldLength
    framed.checkFecf config.strict
    return { framed with header }

variable (f : Frame)

/-- The secondary header with its first byte, which identifies it. -/
def secondaryHeader? : Option Bytes :=
  if f.header.secondaryHeaderPresent then some (f.headers.drop headerLength) else none

def secondaryHeaderData? : Option Bytes := f.secondaryHeader?.map (·.drop 1)

def isIdle : Bool := f.header.firstHeaderPointer == idlePointer

def containsNoPacketStart : Bool := f.header.firstHeaderPointer == noPacketPointer

end Frame

end SpaceLink.Tm
