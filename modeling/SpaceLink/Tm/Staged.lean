import SpaceLink.Tm.Builder
import SpaceLink.Tm.Stored
import SpaceLink.Staging

/-!
# Building TM frames in memory

A `StagedBuilder` does what a `Builder` does, in a buffer for the whole frame. The secondary header
is written there when it is set, and the primary header when the frame is built.
-/

namespace SpaceLink.Tm

structure StagedBuilder where
  header : Header
  /-- Length of the secondary header without its first byte, 0 if there is none. -/
  secondaryHeaderLength : Nat
  secondaryHeaderSet : Bool
  securityHeaderLength : Nat
  securityTrailerLength : Nat
  staging : Staging
deriving DecidableEq, Repr

namespace StagedBuilder

variable (a : Arithmetic)

def create (length secondaryHeaderLength : Nat) (ocfPresent : Bool) (config : Config) :
    Program StagedBuilder := do
  checkRange .secondaryHeaderLength secondaryHeaderLength maxSecondaryHeader
  let present : Bool := 0 < secondaryHeaderLength
  let staging ← Staging.create a length {
    headers := headerLength + (if present then 1 + secondaryHeaderLength else 0)
    securityHeader := config.securityHeaderLength
    securityTrailer := config.securityTrailerLength
    ocfPresent
    fecfPresent := config.fecfPresent } 0
  return {
    header := {
      version, scid := 0, vcid := 0, ocfPresent, mcFrameCount := 0, vcFrameCount := 0
      secondaryHeaderPresent := present, sync := false, packetOrder := false
      segmentLengthId := 0, firstHeaderPointer := 0 }
    secondaryHeaderLength
    secondaryHeaderSet := !present
    securityHeaderLength := config.securityHeaderLength
    securityTrailerLength := config.securityTrailerLength
    staging }

def onStaging {α : Type} (c : Change Staging α) : Change StagedBuilder α :=
  c.within (·.staging) fun m staging => { m with staging }

/-- Writes the secondary header: its first byte, which has version 0 and the length of the data, and
the data. -/
def setSecondaryHeader (d : Bytes) : Change StagedBuilder Unit := do
  let m ← get
  if m.secondaryHeaderLength = 0 then throw (Error.fieldLength .secondaryHeader 0 d.length)
  else
    checkLength .secondaryHeader m.secondaryHeaderLength d.length
    let id := (pack [(2, 0), (6, m.secondaryHeaderLength)]).toUInt8
    let start := headerLength + 1
    let staging ← m.staging.write headerLength start [id]
    let staging ← staging.write start (← a.add start d.length) d
    set { m with staging, secondaryHeaderSet := true }

def perform : Builder.Step → Change StagedBuilder (Option Nat)
  | .scid n => Change.guarded (checkRange .scid n maxScid) fun m => { m with header.scid := n }
  | .vcid n => Change.guarded (checkRange .vcid n maxVcid) fun m => { m with header.vcid := n }
  | .mcFrameCount n => Change.guarded (.ok ()) fun m => { m with header.mcFrameCount := n }
  | .vcFrameCount n => Change.guarded (.ok ()) fun m => { m with header.vcFrameCount := n }
  | .sync v => Change.guarded (.ok ()) fun m => { m with header.sync := v }
  | .packetOrder v => Change.guarded (.ok ()) fun m => { m with header.packetOrder := v }
  | .segmentLengthId n =>
    Change.guarded (checkRange .segmentLengthId n 3) fun m =>
      { m with header.segmentLengthId := n }
  | .firstHeaderPointer n =>
    Change.guarded (checkRange .firstHeaderPointer n noPacketPointer) fun m =>
      { m with header.firstHeaderPointer := n }
  | .idle => Change.guarded (.ok ()) fun m => { m with header.firstHeaderPointer := idlePointer }
  | .secondaryHeader d => do setSecondaryHeader a d; return none
  | .ocf d => do onStaging (Staging.setOcf a d); return none
  | .securityHeader d => do onStaging (Staging.setSecurityHeader a d); return none
  | .securityTrailer d => do onStaging (Staging.setSecurityTrailer a d); return none
  | .addData d => do return some (← onStaging (Staging.addData a d))

/-- The frame, read back from the buffer once the primary header and the check are in it. -/
def build (m : StagedBuilder) : Program StoredFrame := do
  m.staging.checkComplete a
  if !m.secondaryHeaderSet then throw (Error.fieldUnset .secondaryHeader)
  else
    let staging ← m.staging.write 0 headerLength m.header.encode
    StoredFrame.decode a (← staging.finish a) {
      fecfPresent := staging.zones.fecfPresent
      securityHeaderLength := m.securityHeaderLength
      securityTrailerLength := m.securityTrailerLength }

def machine : Machine StagedBuilder Builder.Step StoredFrame where
  perform := perform a
  free m := m.staging.free a
  build := build a

end StagedBuilder

end SpaceLink.Tm
