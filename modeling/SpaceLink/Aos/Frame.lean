import SpaceLink.Aos.Header
import SpaceLink.Checksum.HeaderCheck
import SpaceLink.FrameBytes

/-!
# AOS frames

`Frame.decode` reads a frame from its bytes and the parameters agreed for the physical and the
virtual channel. What the data field carries decides whether it begins with a header of two bytes:
that of an M_PDU points to the first packet, that of a B_PDU to the last bit of the bitstream.
-/

namespace SpaceLink.Aos

/-- What the bytes of a frame do not tell about it. -/
structure Config where
  fhecPresent : Bool := false
  insertZoneLength : Nat := 0
  userDataType : UserDataType := .mpdu
  ocfPresent : Bool := false
  fecfPresent : Bool := true
  securityHeaderLength : Nat := 0
  securityTrailerLength : Nat := 0
  /-- A frame one of whose error control fields does not match is an error rather than
  invalid. -/
  strict : Bool := false
deriving DecidableEq, Repr

def Config.overhead (c : Config) : Overhead where
  headers := headerLength + (if c.fhecPresent then fhecLength else 0) + c.insertZoneLength
  securityHeader := c.securityHeaderLength
  securityTrailer := c.securityTrailerLength
  ocfPresent := c.ocfPresent
  fecfPresent := c.fecfPresent

/-! ## The header of the data field -/

def pduHeaderLength : Nat := 2

/-- The first header pointer of an M_PDU with idle data only. -/
def idlePointer : Nat := 0x7fe

/-- The first header pointer of an M_PDU in which no packet starts. -/
def noPacketPointer : Nat := 0x7ff

/-- The bitstream data pointer of a B_PDU with idle data only. -/
def idleBitstream : Nat := 0x3ffe

/-- The bitstream data pointer of a B_PDU all of whose bits are data. -/
def fullBitstream : Nat := 0x3fff

/-- How much of the data field its header takes. -/
def pduHeaderOf : UserDataType → Nat
  | .mpdu | .bpdu => pduHeaderLength
  | .vca | .idle => 0

def pointerOf? (type : UserDataType) (dataField : Bytes) : Option Nat :=
  let word := Bytes.toNatBE (dataField.take pduHeaderLength)
  match type with
  | .mpdu => some (bits word 0 11)
  | .bpdu => some (bits word 0 14)
  | .vca | .idle => none

/-- A first header pointer leads into the packet zone, unless it does not point. -/
def checkFirstHeader (pointer zoneLength : Nat) : Except Error Unit :=
  if pointer ≠ idlePointer ∧ pointer ≠ noPacketPointer ∧ zoneLength ≤ pointer then
    .error (.pointer .firstHeaderPointer pointer zoneLength)
  else .ok ()

/-- A bitstream data pointer counts bits, so it may be as large as the number of bits in the
zone. -/
def checkBitstream (pointer zoneLength : Nat) : Except Error Unit :=
  if pointer ≠ idleBitstream ∧ pointer ≠ fullBitstream ∧ zoneLength * 8 < pointer then
    .error (.pointer .bitstreamDataPointer pointer zoneLength)
  else .ok ()

/-- The data field has its header, and the pointer in it leads into what follows. -/
def checkPdu (type : UserDataType) (frameLength : Nat) (dataField : Bytes) : Except Error Unit :=
  match pointerOf? type dataField with
  | none => .ok ()
  | some pointer =>
    if dataField.length < pduHeaderLength then
      .error (.notEnoughData frameLength (frameLength + pduHeaderLength - dataField.length))
    else
      let zoneLength := dataField.length - pduHeaderLength
      if type = .mpdu then checkFirstHeader pointer zoneLength
      else checkBitstream pointer zoneLength

/-! ## Frames -/

structure Frame extends FrameBytes where
  header : Header
  fhecPresent : Bool
  insertZoneLength : Nat
  userDataType : UserDataType
deriving DecidableEq, Repr

def headerValid (fhecPresent : Bool) (d : Bytes) : Bool :=
  !fhecPresent || fhecValid (d.take headerLength) (Bytes.slice headerLength fhecLength d)

namespace Frame

def decode (d : Bytes) (config : Config) : Except Error Frame := do
  checkVersion d version headerLength
  match Header.decode d with
  | none => .error (.notEnoughData d.length headerLength)
  | some header =>
    let framed ← FrameBytes.ofBytes d config.overhead
    if config.strict && !headerValid config.fhecPresent d then .error .fhec
    checkPdu config.userDataType d.length framed.dataField
    framed.checkFecf config.strict
    return { framed with
      header
      fhecPresent := config.fhecPresent
      insertZoneLength := config.insertZoneLength
      userDataType := config.userDataType }

variable (f : Frame)

def isHeaderValid : Bool := headerValid f.fhecPresent f.bytes

def fhec? : Option Bytes :=
  if f.fhecPresent then some (Bytes.slice headerLength fhecLength f.bytes) else none

/-- The insert zone, the last of the frame's headers. -/
def insertZone? : Option Bytes :=
  if f.insertZoneLength = 0 then none
  else some (f.headers.drop (f.overhead.headers - f.insertZoneLength))

def pointer? : Option Nat := pointerOf? f.userDataType f.dataField

/-- The frame has idle data only: its virtual channel, its user data type or its pointer says
so. -/
def isIdle : Bool :=
  f.header.vcid == idleVcid ||
    match f.userDataType with
    | .mpdu => f.pointer? == some idlePointer
    | .bpdu => f.pointer? == some idleBitstream
    | .vca => false
    | .idle => true

def pointerFor (required : UserDataType) (field : Field) : Except Error Nat :=
  match if f.userDataType = required then f.pointer? else none with
  | some pointer => .ok pointer
  | none => .error (.userDataType (some field) required f.userDataType)

def firstHeaderPointer : Except Error Nat := f.pointerFor .mpdu .firstHeaderPointer

def bitstreamDataPointer : Except Error Nat := f.pointerFor .bpdu .bitstreamDataPointer

def containsNoPacketStart : Bool :=
  f.userDataType == .mpdu && f.pointer? == some noPacketPointer

def pduZone : Bytes := f.dataField.drop pduHeaderLength

/-- The packets of an M_PDU. -/
def packetZone : Except Error Bytes := do
  discard f.firstHeaderPointer
  return f.pduZone

/-- The bitstream of a B_PDU, padding included. -/
def bitstreamZone : Except Error Bytes := do
  discard f.bitstreamDataPointer
  return f.pduZone

/-- The number of bits of a B_PDU that are data. -/
def validBits : Except Error Nat := do
  let pointer ← f.bitstreamDataPointer
  if pointer = fullBitstream then return f.pduZone.length * 8
  else if pointer = idleBitstream then return 0
  else return pointer

end Frame

end SpaceLink.Aos
