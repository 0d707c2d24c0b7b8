import SpaceLink.Tm.Frame
import SpaceLink.Aos.Frame
import SpaceLink.Tc.Frame

/-! # Transfer frames of any kind -/

namespace SpaceLink

inductive TransferFrame
  | tm (frame : Tm.Frame)
  | aos (frame : Aos.Frame)
  | tc (frame : Tc.Frame)
deriving DecidableEq, Repr

namespace TransferFrame

def scid : TransferFrame → Nat
  | tm f => f.header.scid
  | aos f => f.header.scid
  | tc f => f.header.scid

def vcid : TransferFrame → Nat
  | tm f => f.header.vcid
  | aos f => f.header.vcid
  | tc f => f.header.vcid

/-- The number of the frame on its virtual channel. -/
def vcFrameCount : TransferFrame → Nat
  | tm f => f.header.vcFrameCount.toNat
  | aos f => f.header.vcFrameCount
  | tc f => f.header.frameSequenceNumber.toNat

def bytes : TransferFrame → Bytes
  | tm f => f.bytes
  | aos f => f.bytes
  | tc f => f.bytes

def dataField : TransferFrame → Bytes
  | tm f => f.dataField
  | aos f => f.dataField
  | tc f => f.dataField

/-- The operational control field; TC frames have none. -/
def ocf? : TransferFrame → Option Bytes
  | tm f => f.ocf?
  | aos f => f.ocf?
  | tc _ => none

def isValid : TransferFrame → Bool
  | tm f => f.isValid
  | aos f => f.isValid
  | tc f => f.isValid

/-- The frame carries no user data. -/
def isIdle : TransferFrame → Bool
  | tm f => f.isIdle
  | aos f => f.isIdle
  | tc f => f.isIdle

end TransferFrame

end SpaceLink
