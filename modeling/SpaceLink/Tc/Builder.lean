import SpaceLink.Tc.Frame
import SpaceLink.Draft

/-!
# Building TC frames

A `Builder` makes a frame of fixed length: one with data, of type AD unless the bypass flag is set
(`Builder.create`), or one of type BC, which is full from the start (`Builder.ofCommand`). It is
driven by `Step`s: a step that is refused has no effect, and `Builder.build` can be called at any
time.
-/

namespace SpaceLink.Tc

structure Builder where
  header : Header
  segmentHeader? : Option SegmentHeader
  /-- How the built frame is read back. -/
  config : Config
  draft : Draft
deriving DecidableEq, Repr

namespace Builder

/-- A builder for frames of `length` bytes with data. -/
def create (length : Nat) (config : Config) : Except Error Builder := do
  checkRange .frameLength length maxLength
  let draft ← Draft.plan length config.dataOverhead 0
  return {
    header := {
      version, bypass := false, controlCommand := false, scid := 0, vcid := 0
      frameLength := length, frameSequenceNumber := 0 }
    segmentHeader? := none
    config := { config with strict := false }
    draft }

/-- A builder for the frame of type BC that holds a command; the frame is as long as it needs to
be. -/
def ofCommand (command : ControlCommand) (fecfPresent : Bool) : Except Error Builder := do
  let body := command.encode
  let fecf := if fecfPresent then fecfLength else 0
  let b ← create (headerLength + body.length + fecf) { fecfPresent }
  return { b with
    header.bypass := true
    header.controlCommand := true
    draft := b.draft.addData body }

inductive Step
  | scid (value : Nat)
  | vcid (value : Nat)
  | frameSequenceNumber (value : UInt8)
  /-- Makes a frame with data one of type BD, or of type AD again. A frame of type BC keeps its
  flag. -/
  | bypass (value : Bool)
  | segmentHeader (sequenceFlag : SequenceFlag) (mapId : Nat)
  | securityHeader (data : Bytes)
  | securityTrailer (data : Bytes)
  /-- User data; what does not fit is dropped. -/
  | addData (data : Bytes)
deriving DecidableEq, Repr

def apply (b : Builder) : Step → Except Error Builder
  | .scid n => do
    checkRange .scid n maxScid
    return { b with header.scid := n }
  | .vcid n => do
    checkRange .vcid n maxVcid
    return { b with header.vcid := n }
  | .frameSequenceNumber n => return { b with header.frameSequenceNumber := n }
  | .bypass v =>
    return { b with header.bypass := if b.header.controlCommand then b.header.bypass else v }
  | .segmentHeader sequenceFlag mapId => do
    if b.config.segmented then
      checkRange .mapId mapId SegmentHeader.maxMapId
      return { b with segmentHeader? := some { sequenceFlag, mapId } }
    else .error (.fieldLength .segmentHeader 0 SegmentHeader.length)
  | .securityHeader d => return { b with draft := ← b.draft.setSecurityHeader d }
  | .securityTrailer d => return { b with draft := ← b.draft.setSecurityTrailer d }
  | .addData d => return { b with draft := b.draft.addData d }

def run (b : Builder) (steps : List Step) : Builder := attemptAll apply b steps

def segmentHeader (b : Builder) : Except Error Bytes :=
  if b.config.segmented then
    match b.segmentHeader? with
    | some h => .ok [h.encode]
    | none => .error (.fieldUnset .segmentHeader)
  else .ok []

/-- The frame, if no space is left and no part is missing. -/
def build (b : Builder) : Except Error Frame := do
  let contents ← b.draft.finish
  let segmentHeader ← b.segmentHeader
  Frame.decode (contents.toBytes (b.header.encode ++ segmentHeader) []) b.config

end Builder

end SpaceLink.Tc
