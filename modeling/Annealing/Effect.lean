import Annealing.Fault

/-!
# Effect — computations that change a world and may fail

An `Effect ω α` runs in a world `ω`, changes it, and either answers or fails.  A failure keeps the
world as it was at that point: what was drawn, counted or recorded before it stays so.

`Effect.inField` runs an effect on a part of a larger world, and `Effect.ofExcept` is an effect that
does not touch the world.
-/

namespace Annealing

/-- A computation in a world `ω` that answers or fails. -/
abbrev Effect (ω α : Type) := EStateM Fault ω α

namespace Effect

variable {ω ω' α : Type}

/-- An answer or a failure that leaves the world alone. -/
def ofExcept : Except Fault α → Effect ω α
  | .ok a => pure a
  | .error e => throw e

/-- A step of a world that always answers. -/
def ofStep (step : ω → α × ω) : Effect ω α :=
  fun w => match step w with
    | (a, w') => .ok a w'

/-- Runs an effect on the part of a world that `get` reads and `set` replaces. -/
def inField (get : ω' → ω) (set : ω' → ω → ω') (act : Effect ω α) : Effect ω' α :=
  fun w => match act (get w) with
    | .ok a part => .ok a (set w part)
    | .error e part => .error e (set w part)

/-- The answer or failure, and the world afterwards. -/
def outcome (act : Effect ω α) (w : ω) : Except Fault α × ω :=
  match act w with
  | .ok a w' => (.ok a, w')
  | .error e w' => (.error e, w')

end Effect

end Annealing
