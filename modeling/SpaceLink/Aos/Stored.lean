import SpaceLink.Aos.Frame
import SpaceLink.Zones

/-! # AOS frames as they are stored -/

namespace SpaceLink.Aos

/-- What is stored of an AOS frame only. -/
structure Details where
  header : Header
  fhecPresent : Bool
  insertZoneLength : Nat
  userDataType : UserDataType
  pointer? : Option Nat
  isHeaderValid : Bool
deriving DecidableEq, Repr

def Frame.details (f : Frame) : Details where
  header := f.header
  fhecPresent := f.fhecPresent
  insertZoneLength := f.insertZoneLength
  userDataType := f.userDataType
  pointer? := f.pointer?
  isHeaderValid := f.isHeaderValid

def Frame.stored (f : Frame) : Stored Details := f.toFrameBytes.stored f.details

abbrev StoredFrame := Stored Details

namespace StoredFrame

/-- Whether the check after the primary header is right. If checking is strict, it has to be. -/
def checkHeader (d : Bytes) (config : Config) : Program Bool :=
  if config.fhecPresent then do
    let check ← Bytes.between? headerLength (headerLength + fhecLength) d
    let ok := fhecValid (d.take headerLength) check
    if config.strict && !ok then throw Error.fhec
    else return ok
  else return true

/-- The pointer at the start of the data field, if the user data needs one. It leads into what
follows it. -/
def readPointer (a : Arithmetic) (d : Bytes) (zones : Zones) :
    UserDataType → Program (Option Nat)
  | .vca | .idle => return none
  | type@.mpdu | type@.bpdu => do
    let length ← a.sub zones.dataFieldEnd zones.dataFieldStart
    if length < pduHeaderLength then
      let minimum ← a.sub (← a.add d.length pduHeaderLength) length
      throw (Error.notEnoughData d.length minimum)
    else
      let stop ← a.add zones.dataFieldStart pduHeaderLength
      let word := Bytes.toNatBE (← Bytes.between? zones.dataFieldStart stop d)
      let zoneLength := length - pduHeaderLength
      if type = .mpdu then
        let pointer := bits word 0 11
        checkFirstHeader pointer zoneLength
        return some pointer
      else
        let pointer := bits word 0 14
        checkBitstream a pointer zoneLength
        return some pointer
where
  /-- As for `Aos.checkBitstream`, with the number of bits in words. -/
  checkBitstream (a : Arithmetic) (pointer zoneLength : Nat) : Program Unit := do
    if pointer = idleBitstream ∨ pointer = fullBitstream then return ()
    else if (← a.mul zoneLength 8) < pointer then
      throw (Error.pointer .bitstreamDataPointer pointer zoneLength)
    else return ()

/-- Reads a frame, with the places of its parts computed in words. -/
def decode (a : Arithmetic) (d : Bytes) (config : Config) : Program StoredFrame := do
  checkVersion d version headerLength
  match Header.decode d with
  | none => throw (Error.notEnoughData d.length headerLength)
  | some header =>
    let fhec := if config.fhecPresent then fhecLength else 0
    let zones ← Zones.compute a d.length {
      headers := ← a.add (headerLength + fhec) config.insertZoneLength
      securityHeader := config.securityHeaderLength
      securityTrailer := config.securityTrailerLength
      ocfPresent := config.ocfPresent
      fecfPresent := config.fecfPresent }
    let isHeaderValid ← checkHeader d config
    let pointer? ← readPointer a d zones config.userDataType
    let isValid ← zones.checkFecf a d config.strict
    return {
      bytes := d, zones, isValid
      details := {
        header
        fhecPresent := config.fhecPresent
        insertZoneLength := config.insertZoneLength
        userDataType := config.userDataType
        pointer?, isHeaderValid } }

variable (a : Arithmetic) (f : StoredFrame)

def fhec? : Option (Option Bytes) :=
  if f.details.fhecPresent then do
    return some (← Bytes.between? headerLength (headerLength + fhecLength) f.bytes)
  else some none

/-- The insert zone, counted back from where the security header begins. -/
def insertZone? : Option (Option Bytes) :=
  if f.details.insertZoneLength = 0 then some none
  else do
    let start ← a.sub f.zones.securityHeaderStart f.details.insertZoneLength
    return some (← Bytes.between? start f.zones.securityHeaderStart f.bytes)

def pointerFor (required : UserDataType) (field : Field) : Except Error Nat :=
  match if f.details.userDataType = required then f.details.pointer? else none with
  | some pointer => .ok pointer
  | none => .error (.userDataType (some field) required f.details.userDataType)

/-- What follows the pointer, if the frame has it. -/
def pduZone (required : UserDataType) (field : Field) : Program Bytes := do
  discard (f.pointerFor required field)
  let dataField ← f.zones.dataField f.bytes
  Bytes.between? pduHeaderLength dataField.length dataField

def packetZone : Program Bytes := f.pduZone .mpdu .firstHeaderPointer

def bitstreamZone : Program Bytes := f.pduZone .bpdu .bitstreamDataPointer

end StoredFrame

end SpaceLink.Aos
