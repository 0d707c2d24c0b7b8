import SpaceLink.Channel.Basic

/-! # The state of a channel as text -/

namespace SpaceLink.Channel

def optional {α : Type} (text : α → String) : Option α → String
  | none => "None"
  | some x => "Some(" ++ text x ++ ")"

/-- A packet in flight as the number of bytes so far and the declared length. -/
def inFlightText (p : PartialPacket) : String :=
  s!"({p.bytes.length}, " ++ optional toString p.total? ++ ")"

def display (c : Channel) : String :=
  s!"VirtualChannel\x7bvcid={c.vcid}, mode={c.mode.name}, last_count=" ++
    optional toString c.lastCount? ++ ", in_flight=" ++ optional inFlightText c.inFlight? ++ "\x7d"

end SpaceLink.Channel
