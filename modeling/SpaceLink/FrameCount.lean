/-!
# Frame counts

The frames of a virtual channel are numbered by a counter that wraps. A received count that is not
the one expected shows a `Gap`, whose size is the forward distance between the two on the circle
of counts (`forwardDistance`).
-/

namespace SpaceLink

/-- How far `received` lies ahead of `expected` on the circle of `modulus` counts. A count that
seems to go back has wrapped. -/
def forwardDistance (expected received modulus : Nat) : Nat :=
  let expected := expected % modulus
  let received := received % modulus
  if expected ≤ received then received - expected else modulus - expected + received

/-- The number of frames missing before `received`; there is no counter of modulus 0. -/
def missingFrames? (expected received modulus : Nat) : Option Nat :=
  if modulus = 0 then none else some (forwardDistance expected received modulus)

structure Gap where
  /-- The count after that of the previous frame. -/
  expected : Nat
  received : Nat
  missing : Nat
deriving DecidableEq, Repr

/-- The gap between the previous count, if there is one, and the received one. -/
def Gap.between? (last? : Option Nat) (received modulus : Nat) : Option Gap :=
  match last? with
  | none => none
  | some last =>
    let expected := (last + 1) % modulus
    if received = expected then none
    else some { expected, received, missing := forwardDistance expected received modulus }

end SpaceLink
