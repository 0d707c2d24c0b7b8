import SpaceLink.Tc.Frame
import SpaceLink.Zones

/-! # TC frames as they are stored -/

namespace SpaceLink.Tc

def Frame.stored (f : Frame) : Stored (Header × Option SegmentHeader) :=
  f.toFrameBytes.stored (f.header, f.segmentHeader?)

abbrev StoredFrame := Stored (Header × Option SegmentHeader)

namespace StoredFrame

/-- The segment header and the places, which depend on the type of the frame. -/
def readParts (a : Arithmetic) (h : Header) (d : Bytes) (config : Config) :
    Program (Option SegmentHeader × Zones) :=
  match h.frameType with
  | .bc => return (none, ← Zones.compute a d.length config.commandOverhead)
  | .ad | .bd | .reserved => do
    let segmentHeader? ← readSegmentHeader d config.segmented
    return (segmentHeader?, ← Zones.compute a d.length config.dataOverhead)

/-- Reads a frame, with the places of its parts computed in words. -/
def decode (a : Arithmetic) (d : Bytes) (config : Config) : Program StoredFrame := do
  checkVersion d version headerLength
  match Header.decode d with
  | none => throw (Error.notEnoughData d.length headerLength)
  | some header =>
    if header.frameLength ≠ d.length then throw (Error.frameLength header.frameLength d.length)
    else
      let (segmentHeader?, zones) ← readParts a header d config
      let isValid ← zones.checkFecf a d config.strict
      return { bytes := d, zones, isValid, details := (header, segmentHeader?) }

end StoredFrame

end SpaceLink.Tc
