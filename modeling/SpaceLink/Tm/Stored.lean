import SpaceLink.Tm.Frame
import SpaceLink.Zones

/-! # TM frames as they are stored -/

namespace SpaceLink.Tm

def Frame.stored (f : Frame) : Stored Header := f.toFrameBytes.stored f.header

abbrev StoredFrame := Stored Header

namespace StoredFrame

/-- Reads a frame, with the places of its parts computed in words. -/
def decode (a : Arithmetic) (d : Bytes) (config : Config) : Program StoredFrame := do
  checkVersion d version headerLength
  match Header.decode d with
  | none => throw (Error.notEnoughData d.length headerLength)
  | some header =>
    let secondary ← secondaryHeaderLength header d
    let zones ← Zones.compute a d.length {
      headers := headerLength + secondary
      securityHeader := config.securityHeaderLength
      securityTrailer := config.securityTrailerLength
      ocfPresent := header.ocfPresent
      fecfPresent := config.fecfPresent }
    checkPointer header (← a.sub zones.dataFieldEnd zones.dataFieldStart)
    let isValid ← zones.checkFecf a d config.strict
    return { bytes := d, zones, isValid, details := header }

variable (f : StoredFrame)

def secondaryHeader? : Option (Option Bytes) :=
  if f.details.secondaryHeaderPresent then do
    return some (← Bytes.between? headerLength f.zones.securityHeaderStart f.bytes)
  else some none

def secondaryHeaderData? : Option (Option Bytes) := do
  match ← f.secondaryHeader? with
  | some h => return some (← Bytes.between? 1 h.length h)
  | none => return none

end StoredFrame

end SpaceLink.Tm
