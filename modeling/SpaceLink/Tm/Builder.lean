import SpaceLink.Tm.Frame
import SpaceLink.Draft

/-!
# Building TM frames

A `Builder` makes a frame of fixed length and parts. It is driven by `Step`s: a step that is
refused has no effect, and `Builder.build` can be called at any time.
-/

namespace SpaceLink.Tm

/-- The longest secondary header, not counting its first byte. -/
def maxSecondaryHeader : Nat := 63

structure Builder where
  header : Header
  /-- The secondary header without its first byte, if the frame has one. -/
  secondaryHeader? : Option Part
  /-- How the built frame is read back. -/
  config : Config
  draft : Draft
deriving DecidableEq, Repr

namespace Builder

/-- A builder for frames of `length` bytes. A secondary header of length 0 is none. -/
def create (length secondaryHeaderLength : Nat) (ocfPresent : Bool) (config : Config) :
    Except Error Builder := do
  checkRange .secondaryHeaderLength secondaryHeaderLength maxSecondaryHeader
  let present : Bool := 0 < secondaryHeaderLength
  let draft ← Draft.plan length {
    headers := headerLength + (if present then 1 + secondaryHeaderLength else 0)
    securityHeader := config.securityHeaderLength
    securityTrailer := config.securityTrailerLength
    ocfPresent
    fecfPresent := config.fecfPresent } 0
  return {
    header := {
      version, scid := 0, vcid := 0, ocfPresent, mcFrameCount := 0, vcFrameCount := 0
      secondaryHeaderPresent := present, sync := false, packetOrder := false
      segmentLengthId := 0, firstHeaderPointer := 0 }
    secondaryHeader? := if present then some (Part.declare secondaryHeaderLength) else none
    config := { config with strict := false }
    draft }

inductive Step
  | scid (value : Nat)
  | vcid (value : Nat)
  | mcFrameCount (value : UInt8)
  | vcFrameCount (value : UInt8)
  | sync (value : Bool)
  | packetOrder (value : Bool)
  | segmentLengthId (value : Nat)
  /-- May be a value that does not point. -/
  | firstHeaderPointer (value : Nat)
  | idle
  /-- The data without the first byte, which the builder writes. -/
  | secondaryHeader (data : Bytes)
  | ocf (data : Bytes)
  | securityHeader (data : Bytes)
  | securityTrailer (data : Bytes)
  /-- User data; what does not fit is dropped. -/
  | addData (data : Bytes)
deriving DecidableEq, Repr

def apply (b : Builder) : Step → Except Error Builder
  | .scid n => do
    checkRange .scid n maxScid
    return { b with header.scid := n }
  | .vcid n => do
    checkRange .vcid n maxVcid
    return { b with header.vcid := n }
  | .mcFrameCount n => return { b with header.mcFrameCount := n }
  | .vcFrameCount n => return { b with header.vcFrameCount := n }
  | .sync v => return { b with header.sync := v }
  | .packetOrder v => return { b with header.packetOrder := v }
  | .segmentLengthId n => do
    checkRange .segmentLengthId n 3
    return { b with header.segmentLengthId := n }
  | .firstHeaderPointer n => do
    checkRange .firstHeaderPointer n noPacketPointer
    return { b with header.firstHeaderPointer := n }
  | .idle => return { b with header.firstHeaderPointer := idlePointer }
  | .secondaryHeader d =>
    return { b with secondaryHeader? := ← Part.set? b.secondaryHeader? .secondaryHeader d }
  | .ocf d => return { b with draft := ← b.draft.setOcf d }
  | .securityHeader d => return { b with draft := ← b.draft.setSecurityHeader d }
  | .securityTrailer d => return { b with draft := ← b.draft.setSecurityTrailer d }
  | .addData d => return { b with draft := b.draft.addData d }

def run (b : Builder) (steps : List Step) : Builder := attemptAll apply b steps

/-- The frame, if no space is left and no part is missing. The first byte of a secondary header
has version 0 and the length of the data. -/
def build (b : Builder) : Except Error Frame := do
  let contents ← b.draft.finish
  let secondary? ← Part.get? b.secondaryHeader? .secondaryHeader
  let secondary := match secondary? with
    | some data => (pack [(2, 0), (6, data.length)]).toUInt8 :: data
    | none => []
  Frame.decode (contents.toBytes (b.header.encode ++ secondary) []) b.config

end Builder

end SpaceLink.Tm
