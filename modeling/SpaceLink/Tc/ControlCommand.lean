import SpaceLink.Bytes

/-! # The control commands of TC frames -/

namespace SpaceLink.Tc

/-- What the data field of a frame of type BC says to the receiver. -/
inductive ControlCommand
  | unlock
  /-- Sets the sequence number expected next. -/
  | setVr (value : UInt8)
  | reserved (data : Bytes)
deriving DecidableEq, Repr

namespace ControlCommand

def decode : Bytes → ControlCommand
  | [0x00] => .unlock
  | [0x82, 0x00, vr] => .setVr vr
  | d => .reserved d

def encode : ControlCommand → Bytes
  | .unlock => [0x00]
  | .setVr vr => [0x82, 0x00, vr]
  | .reserved d => d

end ControlCommand

end SpaceLink.Tc
