/-! # What the data field of an AOS frame carries -/

namespace SpaceLink

/-- The kind of data in the data field. The frame does not say it; it is agreed for a virtual
channel ahead of time. -/
inductive UserDataType
  /-- Multiplexing protocol data unit: packets. -/
  | mpdu
  /-- Bitstream protocol data unit. -/
  | bpdu
  /-- Virtual channel access service data unit. -/
  | vca
  | idle
deriving DecidableEq, Repr, Inhabited

def UserDataType.name : UserDataType → String
  | .mpdu => "M_PDU"
  | .bpdu => "B_PDU"
  | .vca => "VCA_SDU"
  | .idle => "IDLE"

end SpaceLink
