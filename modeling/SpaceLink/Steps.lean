/-!
# Stepwise construction

Builders are driven by steps, some of which they refuse. `attempt` makes a step that is refused
have no effect, and `attemptAll` makes a sequence of steps.
-/

namespace SpaceLink

variable {β σ ε : Type} (apply : β → σ → Except ε β)

/-- The state after a step, which is the state before it if the step is refused. -/
def attempt (b : β) (s : σ) : β :=
  match apply b s with
  | .ok b => b
  | .error _ => b

def attemptAll (b : β) (steps : List σ) : β := steps.foldl (attempt apply) b

end SpaceLink
