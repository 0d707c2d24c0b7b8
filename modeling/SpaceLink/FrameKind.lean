/-! # The kinds of transfer frame -/

namespace SpaceLink

/-- Telemetry, advanced orbiting systems, telecommand. -/
inductive FrameKind
  | tm
  | aos
  | tc
deriving DecidableEq, Repr

def FrameKind.name : FrameKind → String
  | .tm => "TM"
  | .aos => "AOS"
  | .tc => "TC"

end SpaceLink
