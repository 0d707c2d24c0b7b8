import SpaceLink.BitField
import SpaceLink.FrameKind
import SpaceLink.Aos.UserDataType

/-!
# Errors

`Error` lists the causes for which frames are refused, builders reject a value and channels
cannot use a frame; `Error.message` is the one place that words them. `checkRange` and
`checkLength` are the two tests on a value that is about to be written into a field.
-/

namespace SpaceLink

/-- A field or part of a frame that an error can name. -/
inductive Field
  | scid
  | vcid
  | mapId
  | segmentLengthId
  | vcFrameCount
  | vcFrameCountCycle
  | firstHeaderPointer
  | bitstreamDataPointer
  | frameLength
  | secondaryHeaderLength
  | secondaryHeader
  | securityHeader
  | securityTrailer
  | segmentHeader
  | insertZone
  | ocf
  | clcwVersion
  | clcwStatusField
  | clcwCopInEffect
  | clcwVcid
  | clcwFarmBCounter
deriving DecidableEq, Repr

def Field.name : Field → String
  | .scid => "scid"
  | .vcid => "vcid"
  | .mapId => "map id"
  | .segmentLengthId => "segment length id"
  | .vcFrameCount => "vc frame count"
  | .vcFrameCountCycle => "vc frame count cycle"
  | .firstHeaderPointer => "first header pointer"
  | .bitstreamDataPointer => "bitstream data pointer"
  | .frameLength => "frame length"
  | .secondaryHeaderLength => "secondary header length"
  | .secondaryHeader => "secondary header"
  | .securityHeader => "security header"
  | .securityTrailer => "security trailer"
  | .segmentHeader => "segment header"
  | .insertZone => "insert zone"
  | .ocf => "ocf"
  | .clcwVersion => "clcw version"
  | .clcwStatusField => "clcw status field"
  | .clcwCopInEffect => "clcw cop in effect"
  | .clcwVcid => "clcw vcid"
  | .clcwFarmBCounter => "clcw farm-b counter"

inductive Error
  /-- The bytes cannot hold what they must; every longer string below `minimum` fails too. -/
  | notEnoughData (actual minimum : Nat)
  | version (expected actual : Nat)
  /-- The length that the header declares is not the number of bytes. -/
  | frameLength (declared actual : Nat)
  /-- The frame error control field is not the check of the frame. Only if checking is strict. -/
  | fecf (expected computed : Nat)
  /-- The header error control field is not the check of the header. Only if checking is
  strict. -/
  | fhec
  /-- A pointer leads out of the zone it points into. -/
  | pointer (field : Field) (value zoneLength : Nat)
  | outOfRange (field : Field) (value max : Nat)
  /-- A part does not have the length it was declared with. -/
  | fieldLength (field : Field) (expected actual : Nat)
  /-- A frame was to be built with space left for user data. -/
  | notFull (free : Nat)
  /-- A frame was to be built without a part that it was declared to have. -/
  | fieldUnset (field : Field)
  /-- The frame carries another kind of data. The field is the one asked for, `none` for an
  operation on a builder. -/
  | userDataType (field : Option Field) (required actual : UserDataType)
  | idleFrame
  | syncFlag
  /-- A frame reached the channel of another virtual channel. -/
  | vcidMismatch (expected actual : Nat)
  /-- Bitstream data was asked for from a kind of frame that has none. -/
  | accessMode (frame : FrameKind)
deriving DecidableEq, Repr

namespace Error

def hexWord (n : Nat) : String :=
  "0x" ++ String.ofList ([12, 8, 4, 0].map fun lo => (bits n lo 4).digitChar)

/-- Who asked for another kind of user data. -/
def userDataSubject : Option Field → String
  | some field => field.name
  | none => "operation"

def message : Error → String
  | notEnoughData actual minimum =>
    s!"Not enough bytes; got {actual}, need at least {minimum}"
  | version expected actual =>
    s!"invalid transfer frame version; expected {expected}, got {actual}"
  | frameLength declared actual =>
    s!"frame length field mismatch; header declares {declared} bytes, got {actual}"
  | fecf expected computed =>
    s!"FECF mismatch; frame has {hexWord expected}, computed {hexWord computed}"
  | fhec => "FHEC mismatch"
  | pointer field value zoneLength =>
    s!"{field.name} {value} outside of zone with length {zoneLength}"
  | outOfRange field value max =>
    s!"{field.name} value {value} out of range; max is {max}"
  | fieldLength field expected actual =>
    s!"invalid length for {field.name}; expected {expected}, got {actual}"
  | notFull free => s!"frame not full; {free} bytes of user data remaining"
  | fieldUnset field => s!"{field.name} declared present but never set"
  | userDataType field required actual =>
    "operation not supported by user data type: " ++
      s!"{userDataSubject field} requires {required.name}, frame is {actual.name}"
  | idleFrame => "cannot extract units from an idle frame"
  | syncFlag => "cannot extract bitstream data from a frame with the synchronization flag set"
  | vcidMismatch expected actual =>
    s!"frame for vcid {actual} provided to virtual channel {expected}"
  | accessMode frame =>
    s!"access mode bitstream access requires AOS B_PDU frames, not {frame.name} " ++
      "not supported for this frame type"

end Error

/-- Refuses a value above the largest that the field holds. -/
def checkRange (field : Field) (value max : Nat) : Except Error Unit :=
  if max < value then .error (.outOfRange field value max) else .ok ()

theorem checkRange_eq_ok_iff {field : Field} {value max : Nat} :
    checkRange field value max = .ok () ↔ value ≤ max := by
  simp [checkRange]

def checkLength (field : Field) (expected actual : Nat) : Except Error Unit :=
  if expected = actual then .ok () else .error (.fieldLength field expected actual)

theorem checkLength_eq_ok_iff {field : Field} {expected actual : Nat} :
    checkLength field expected actual = .ok () ↔ expected = actual := by
  simp [checkLength]

end SpaceLink
