import SpaceLink.Aos.Builder
import SpaceLink.Aos.Stored
import SpaceLink.Staging

/-!
# Building AOS frames in memory

A `StagedBuilder` does what a `Builder` does, in a buffer for the whole frame. The insert zone is
written there when it is set, and the primary header, its check and the pointer when the frame is
built.
-/

namespace SpaceLink.Aos

structure StagedBuilder where
  header : Header
  fhecPresent : Bool
  insertZoneLength : Nat
  insertZoneSet : Bool
  userDataType : UserDataType
  pointer? : Option Nat
  securityHeaderLength : Nat
  securityTrailerLength : Nat
  staging : Staging
deriving DecidableEq, Repr

namespace StagedBuilder

variable (a : Arithmetic)

def create (length : Nat) (config : Config) : Program StagedBuilder := do
  let fhec := if config.fhecPresent then fhecLength else 0
  let staging ← Staging.create a length {
    headers := ← a.add (headerLength + fhec) config.insertZoneLength
    securityHeader := config.securityHeaderLength
    securityTrailer := config.securityTrailerLength
    ocfPresent := config.ocfPresent
    fecfPresent := config.fecfPresent } (pduHeaderOf config.userDataType)
  return {
    header := {
      version, scid := 0, vcid := 0, vcFrameCount := 0, replay := false
      vcFrameCountUsage := false, vcFrameCountCycle := 0 }
    fhecPresent := config.fhecPresent
    insertZoneLength := config.insertZoneLength
    insertZoneSet := config.insertZoneLength = 0
    userDataType := config.userDataType
    pointer? := none
    securityHeaderLength := config.securityHeaderLength
    securityTrailerLength := config.securityTrailerLength
    staging }

/-- Sets the pointer of a frame that has one of the type. -/
def setPointer (type : UserDataType) (field : Field) (pointer max : Nat) :
    Change StagedBuilder (Option Nat) := do
  let m ← get
  if m.userDataType ≠ type then throw (Error.userDataType none type m.userDataType)
  else
    checkRange field pointer max
    set { m with pointer? := some pointer }
    return none

/-- The pointer that marks idle data; types without a pointer keep what they have. -/
def idlePointer? (m : StagedBuilder) : Option Nat :=
  match m.userDataType with
  | .mpdu => some idlePointer
  | .bpdu => some idleBitstream
  | .vca | .idle => m.pointer?

def onStaging {α : Type} (c : Change Staging α) : Change StagedBuilder α :=
  c.within (·.staging) fun m staging => { m with staging }

def setInsertZone (d : Bytes) : Change StagedBuilder Unit := do
  let m ← get
  checkLength .insertZone m.insertZoneLength d.length
  let start ← a.sub m.staging.zones.securityHeaderStart m.insertZoneLength
  let staging ← m.staging.write start (← a.add start d.length) d
  set { m with staging, insertZoneSet := true }

def perform : Builder.Step → Change StagedBuilder (Option Nat)
  | .scid n => Change.guarded (checkRange .scid n maxScid) fun m => { m with header.scid := n }
  | .vcid n => Change.guarded (checkRange .vcid n maxVcid) fun m => { m with header.vcid := n }
  | .vcFrameCount n =>
    Change.guarded (checkRange .vcFrameCount n maxCount) fun m =>
      { m with header.vcFrameCount := n }
  | .replay v => Change.guarded (.ok ()) fun m => { m with header.replay := v }
  | .vcFrameCountUsage v => Change.guarded (.ok ()) fun m => { m with header.vcFrameCountUsage := v }
  | .vcFrameCountCycle n =>
    Change.guarded (checkRange .vcFrameCountCycle n 0xf) fun m =>
      { m with header.vcFrameCountCycle := n }
  | .firstHeaderPointer n => setPointer .mpdu .firstHeaderPointer n noPacketPointer
  | .bitstreamDataPointer n => setPointer .bpdu .bitstreamDataPointer n fullBitstream
  | .idle => do
    modify fun m => { m with pointer? := m.idlePointer? }
    return none
  | .insertZone d => do setInsertZone a d; return none
  | .ocf d => do onStaging (Staging.setOcf a d); return none
  | .securityHeader d => do onStaging (Staging.setSecurityHeader a d); return none
  | .securityTrailer d => do onStaging (Staging.setSecurityTrailer a d); return none
  | .addData d => do return some (← onStaging (Staging.addData a d))

/-- Writes the pointer at the start of the data field, if the user data needs one. -/
def writePointer (m : StagedBuilder) (staging : Staging) : Program Staging :=
  match m.userDataType, m.pointer? with
  | .mpdu, none => throw (Error.fieldUnset .firstHeaderPointer)
  | .bpdu, none => throw (Error.fieldUnset .bitstreamDataPointer)
  | .mpdu, some pointer | .bpdu, some pointer => do
    let start := staging.zones.dataFieldStart
    staging.write start (← a.add start pduHeaderLength) (Bytes.ofNatBE pduHeaderLength pointer)
  | .vca, _ | .idle, _ => return staging

/-- Writes the check of the primary header after it, if there is to be one. -/
def writeFhec (m : StagedBuilder) (staging : Staging) : Option Staging :=
  if m.fhecPresent then do
    let check ← fhec? (← Bytes.between? 0 headerLength staging.buffer)
    staging.write headerLength (headerLength + fhecLength) check
  else some staging

/-- The frame, read back from the buffer once all headers and the check are in it. -/
def build (m : StagedBuilder) : Program StoredFrame := do
  m.staging.checkComplete a
  if !m.insertZoneSet then throw (Error.fieldUnset .insertZone)
  else
    let staging ← m.staging.write 0 headerLength m.header.encode
    let staging ← m.writePointer a staging
    let staging ← m.writeFhec staging
    StoredFrame.decode a (← staging.finish a) {
      fhecPresent := m.fhecPresent
      insertZoneLength := m.insertZoneLength
      userDataType := m.userDataType
      ocfPresent := staging.zones.ocfStart?.isSome
      fecfPresent := staging.zones.fecfPresent
      securityHeaderLength := m.securityHeaderLength
      securityTrailerLength := m.securityTrailerLength }

def machine : Machine StagedBuilder Builder.Step StoredFrame where
  perform := perform a
  free m := m.staging.free a
  build := build a

end StagedBuilder

end SpaceLink.Aos
