import SpaceLink.Tc.Builder
import SpaceLink.Tc.Stored
import SpaceLink.Staging

/-!
# Building TC frames in memory

A `StagedBuilder` does what a `Builder` does, in a buffer for the whole frame. The primary header
and the segment header are written there when the frame is built.
-/

namespace SpaceLink.Tc

structure StagedBuilder where
  header : Header
  segmented : Bool
  segmentHeader? : Option SegmentHeader
  securityHeaderLength : Nat
  securityTrailerLength : Nat
  staging : Staging
deriving DecidableEq, Repr

namespace StagedBuilder

variable (a : Arithmetic)

def create (length : Nat) (config : Config) : Program StagedBuilder := do
  checkRange .frameLength length maxLength
  let staging ← Staging.create a length config.dataOverhead 0
  return {
    header := {
      version, bypass := false, controlCommand := false, scid := 0, vcid := 0
      frameLength := length, frameSequenceNumber := 0 }
    segmented := config.segmented
    segmentHeader? := none
    securityHeaderLength := config.securityHeaderLength
    securityTrailerLength := config.securityTrailerLength
    staging }

def ofCommand (command : ControlCommand) (fecfPresent : Bool) : Program StagedBuilder := do
  let body := command.encode
  let fecf := if fecfPresent then fecfLength else 0
  let m ← create a (headerLength + body.length + fecf) { fecfPresent }
  let (_, staging) ← (Staging.addData a body).on m.staging
  return { m with header.bypass := true, header.controlCommand := true, staging }

def setSegmentHeader (sequenceFlag : SequenceFlag) (mapId : Nat) :
    Change StagedBuilder (Option Nat) := do
  let m ← get
  if m.segmented then
    checkRange .mapId mapId SegmentHeader.maxMapId
    set { m with segmentHeader? := some { sequenceFlag, mapId } }
    return none
  else throw (Error.fieldLength .segmentHeader 0 SegmentHeader.length)

def onStaging {α : Type} (c : Change Staging α) : Change StagedBuilder α :=
  c.within (·.staging) fun m staging => { m with staging }

def perform : Builder.Step → Change StagedBuilder (Option Nat)
  | .scid n => Change.guarded (checkRange .scid n maxScid) fun m => { m with header.scid := n }
  | .vcid n => Change.guarded (checkRange .vcid n maxVcid) fun m => { m with header.vcid := n }
  | .frameSequenceNumber n =>
    Change.guarded (.ok ()) fun m => { m with header.frameSequenceNumber := n }
  | .bypass v =>
    Change.guarded (.ok ()) fun m =>
      { m with header.bypass := if m.header.controlCommand then m.header.bypass else v }
  | .segmentHeader sequenceFlag mapId => setSegmentHeader sequenceFlag mapId
  | .securityHeader d => do onStaging (Staging.setSecurityHeader a d); return none
  | .securityTrailer d => do onStaging (Staging.setSecurityTrailer a d); return none
  | .addData d => do return some (← onStaging (Staging.addData a d))

/-- Writes the segment header after the primary header, if there is to be one. -/
def writeSegmentHeader (m : StagedBuilder) (staging : Staging) : Program Staging :=
  if m.segmented then
    match m.segmentHeader? with
    | some h => staging.write headerLength (headerLength + SegmentHeader.length) [h.encode]
    | none => throw (Error.fieldUnset .segmentHeader)
  else return staging

/-- The frame, read back from the buffer once all headers and the check are in it. -/
def build (m : StagedBuilder) : Program StoredFrame := do
  m.staging.checkComplete a
  let staging ← m.staging.write 0 headerLength m.header.encode
  let staging ← m.writeSegmentHeader staging
  StoredFrame.decode a (← staging.finish a) {
    segmented := m.segmented
    fecfPresent := staging.zones.fecfPresent
    securityHeaderLength := m.securityHeaderLength
    securityTrailerLength := m.securityTrailerLength }

def machine : Machine StagedBuilder Builder.Step StoredFrame where
  perform := perform a
  free m := m.staging.free a
  build := build a

end StagedBuilder

end SpaceLink.Tc
