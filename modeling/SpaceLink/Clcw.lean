import SpaceLink.Bytes
import SpaceLink.Error

/-!
# The operational control field

Four bytes near the end of TM and AOS frames. If the first bit is zero they are a communications
link control word, which reports the state of the telecommand link back to the sender.
-/

namespace SpaceLink

def ocfLength : Nat := 4

/-- A communications link control word. The report value fills a byte; the other numbers are
narrower. -/
structure Clcw where
  version : Nat
  statusField : Nat
  copInEffect : Nat
  vcid : Nat
  noRfAvailable : Bool
  noBitLock : Bool
  lockout : Bool
  wait : Bool
  retransmit : Bool
  farmBCounter : Nat
  reportType : Bool
  reportValue : UInt8
deriving DecidableEq, Repr

namespace Clcw

/-- Reads a control word; `none` if there are too few bytes or the first bit marks a report of
another type. -/
def decode : Bytes → Option Clcw
  | b0 :: b1 :: b2 :: b3 :: _ =>
    if flag b0.toNat 7 then none
    else some {
      version := bits b0.toNat 5 2
      statusField := bits b0.toNat 2 3
      copInEffect := bits b0.toNat 0 2
      vcid := bits b1.toNat 2 6
      noRfAvailable := flag b2.toNat 7
      noBitLock := flag b2.toNat 6
      lockout := flag b2.toNat 5
      wait := flag b2.toNat 4
      retransmit := flag b2.toNat 3
      farmBCounter := bits b2.toNat 1 2
      reportType := flag b2.toNat 0
      reportValue := b3 }
  | _ => none

/-- Writes the word, refusing the first number that does not fit its field. -/
def encode (w : Clcw) : Except Error Bytes := do
  checkRange .clcwVersion w.version 3
  checkRange .clcwStatusField w.statusField 7
  checkRange .clcwCopInEffect w.copInEffect 3
  checkRange .clcwVcid w.vcid 63
  checkRange .clcwFarmBCounter w.farmBCounter 3
  return [
    (pack [(1, 0), (2, w.version), (3, w.statusField), (2, w.copInEffect)]).toUInt8,
    (pack [(6, w.vcid), (2, 0)]).toUInt8,
    (pack [(1, w.noRfAvailable.toNat), (1, w.noBitLock.toNat), (1, w.lockout.toNat),
      (1, w.wait.toNat), (1, w.retransmit.toNat), (2, w.farmBCounter),
      (1, w.reportType.toNat)]).toUInt8,
    w.reportValue]

end Clcw

end SpaceLink
