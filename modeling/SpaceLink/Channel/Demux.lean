import SpaceLink.Channel.Basic

/-!
# Demultiplexing

A `Demux` holds channels under the numbers of virtual channels, at most one under each, and hands
every frame to the one that is held under its number. Frames for which there is none are counted, and
given to a handler if there is one.

A channel is put under its own number (`Demux.insert`), and neither frames nor resets change either.
But it may also be changed in place (`Demux.modify`), even to one of another number: the demultiplexer
does not look at the number of a channel again.
-/

namespace SpaceLink

structure Demux where
  /-- Each channel with the number that it is held under. -/
  channels : List (Nat × Channel) := []
  unrouted : Nat := 0
  /-- Whether there is a handler for frames without a channel. -/
  handler : Bool := false
deriving DecidableEq, Repr

namespace Demux

variable (d : Demux)

def channel? (vcid : Nat) : Option Channel :=
  (d.channels.find? (·.1 == vcid)).map (·.2)

/-- Puts a channel in the place of the one under its number, if there is one. -/
def insert (c : Channel) : Demux :=
  { d with channels := (c.vcid, c) :: d.channels.filter (·.1 != c.vcid) }

theorem channel?_insert (c : Channel) (vcid : Nat) :
    (d.insert c).channel? vcid = if c.vcid = vcid then some c else d.channel? vcid := by
  by_cases h : c.vcid = vcid
  · simp [insert, channel?, h]
  · simp only [insert, channel?, List.find?_cons, List.find?_filter, if_neg h,
      beq_eq_false_iff_ne.mpr h]
    congr 2
    funext e
    by_cases he : e.1 = vcid <;> simp [he, Ne.symm h]

/-- A demultiplexer of these channels. -/
def ofChannels (cs : List Channel) (handler : Bool) : Demux := cs.foldl insert { handler }

/-- Changes the channel under a number in place. -/
def modify (vcid : Nat) (change : Channel → Channel) : Demux :=
  { d with channels := d.channels.map fun e => if e.1 = vcid then (e.1, change e.2) else e }

theorem channel?_modify (vcid : Nat) (change : Channel → Channel) (v : Nat) :
    (d.modify vcid change).channel? v =
      if vcid = v then (d.channel? v).map change else d.channel? v := by
  have hkey (e : Nat × Channel) :
      ((if e.1 = vcid then (e.1, change e.2) else e).1 == v) = (e.1 == v) := by
    split <;> rfl
  simp only [modify, channel?, List.find?_map, Function.comp_def, hkey, Option.map_map]
  cases he : d.channels.find? (·.1 == v) with
  | none => rw [Option.map_none, Option.map_none, Option.map_none, ite_self]
  | some e =>
    have hv : e.1 = v := by simpa using List.find?_some he
    simp only [Option.map_some, hv, eq_comm (a := v)]
    split <;> rfl

def reset : Demux := { d with channels := d.channels.map fun e => (e.1, e.2.reset) }

theorem channel?_reset (vcid : Nat) :
    d.reset.channel? vcid = (d.channel? vcid).map Channel.reset := by
  simp only [reset, channel?, List.find?_map, Function.comp_def, Option.map_map]

def resetChannel (vcid : Nat) : Demux := d.modify vcid Channel.reset

variable {F : Type} [ChannelFrame F]

/-- Hands the frame to the channel under its number. Returns what came of it there, or `none` if there
is no channel. -/
def process (f : F) : Demux × Option Outcome :=
  let vcid := ChannelFrame.vcid f
  match d.channel? vcid with
  | some c =>
    let outcome := c.process f
    (d.modify vcid fun _ => outcome.channel, some outcome)
  | none => ({ d with unrouted := d.unrouted + 1 }, none)

/-- Whether the handler is called with the frame. -/
def handles (f : F) : Bool := d.handler && (d.channel? (ChannelFrame.vcid f)).isNone

end Demux

end SpaceLink
