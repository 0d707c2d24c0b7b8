import SpaceLink.Tc.Header
import SpaceLink.Tc.ControlCommand
import SpaceLink.FrameBytes

/-!
# TC frames

`Frame.decode` reads a frame from its bytes and the parameters agreed for the channel. The header
declares the length of the frame. Frames of type BC hold a control command; they have neither a
segment header nor security parts, whatever is agreed for frames with data.
-/

namespace SpaceLink.Tc

/-- What the bytes of a frame do not tell about it. -/
structure Config where
  /-- Frames with data have a segment header. -/
  segmented : Bool := false
  fecfPresent : Bool := true
  securityHeaderLength : Nat := 0
  securityTrailerLength : Nat := 0
  /-- A frame whose error control field does not match is an error rather than invalid. -/
  strict : Bool := false
deriving DecidableEq, Repr

def Config.dataOverhead (c : Config) : Overhead where
  headers := headerLength + (if c.segmented then SegmentHeader.length else 0)
  securityHeader := c.securityHeaderLength
  securityTrailer := c.securityTrailerLength
  ocfPresent := false
  fecfPresent := c.fecfPresent

def Config.commandOverhead (c : Config) : Overhead where
  headers := headerLength
  securityHeader := 0
  securityTrailer := 0
  ocfPresent := false
  fecfPresent := c.fecfPresent

/-- The segment header counts among the headers, not as data. -/
structure Frame extends FrameBytes where
  header : Header
  segmentHeader? : Option SegmentHeader
deriving DecidableEq, Repr

/-- The segment header of a frame with data, if such frames are segmented. -/
def readSegmentHeader (d : Bytes) (segmented : Bool) : Except Error (Option SegmentHeader) :=
  if segmented then
    match d[headerLength]? with
    | some b => .ok (some (.decode b))
    | none => .error (.notEnoughData d.length (headerLength + SegmentHeader.length))
  else .ok none

/-- The segment header and the parts, which depend on the type of the frame. -/
def readParts (h : Header) (d : Bytes) (config : Config) :
    Except Error (Option SegmentHeader × FrameBytes) :=
  match h.frameType with
  | .bc => return (none, ← FrameBytes.ofBytes d config.commandOverhead)
  | .ad | .bd | .reserved => do
    let segmentHeader? ← readSegmentHeader d config.segmented
    return (segmentHeader?, ← FrameBytes.ofBytes d config.dataOverhead)

namespace Frame

def decode (d : Bytes) (config : Config) : Except Error Frame := do
  checkVersion d version headerLength
  match Header.decode d with
  | none => .error (.notEnoughData d.length headerLength)
  | some header =>
    if header.frameLength ≠ d.length then .error (.frameLength header.frameLength d.length)
    else
      let (segmentHeader?, framed) ← readParts header d config
      framed.checkFecf config.strict
      return { framed with header, segmentHeader? }

variable (f : Frame)

def frameType : FrameType := f.header.frameType

def mapId? : Option Nat := f.segmentHeader?.map (·.mapId)

def controlCommand? : Option ControlCommand :=
  if f.frameType = .bc then some (.decode f.dataField) else none

/-- The frame carries no data for the user of the channel. -/
def isIdle : Bool := f.frameType = .bc

end Frame

end SpaceLink.Tc
