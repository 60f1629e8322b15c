import Annealing.Options
import Annealing.Value.Arithmetic

/-!
# Schedule — the temperatures of a search

A schedule is a sequence of temperatures.  It starts at `first`, goes from each temperature to the
next by `cooled`, and ends before the first one of which `above` does not hold.  The library uses
the geometric schedule, in which cooling multiplies by a factor and a temperature counts while it is
above a minimum (`Schedule.geometric`).  Which numbers a schedule consists of is left open, so that
its length can be compared with the closed form on exact numbers.

* `Schedule.take` is the start of a schedule and says whether anything follows.
* `Schedule.length` counts the levels, and refuses a schedule that never ends.

A schedule of doubles passes from each temperature to the next by a fixed rule, so one that ends has
no temperature twice and at most as many levels as there are doubles (`Schedule.levelLimit`).
-/

namespace Annealing

/-- A sequence of temperatures. -/
structure Schedule (τ : Type) where
  first : τ
  above : τ → Except Fault Bool
  cooled : τ → Except Fault τ

namespace Schedule

variable {τ : Type}

/-- The number of doubles, which no schedule of doubles that ends exceeds. -/
def levelLimit : Nat := 2 ^ 64

/-- The first `n` levels from the temperature `t` on, and whether none follows them. -/
def takeFrom (s : Schedule τ) : Nat → τ → Except Fault (List τ × Bool)
  | 0, t => do return ([], !(← s.above t))
  | n + 1, t => do
      if ← s.above t then
        let (more, ended) ← takeFrom s n (← s.cooled t)
        return (t :: more, ended)
      else return ([], true)

/-- The first `n` levels, and whether none follows them. -/
def take (s : Schedule τ) (n : Nat) : Except Fault (List τ × Bool) :=
  s.takeFrom n s.first

/-- `count` and the number of levels from the temperature `t` on, of which there are less than
`fuel`. -/
def lengthFrom (s : Schedule τ) : (fuel count : Nat) → τ → Except Fault Nat
  | 0, _, _ => .error .endless
  | fuel + 1, count, t => do
      if ← s.above t then lengthFrom s fuel (count + 1) (← s.cooled t) else return count

/-- The number of levels. -/
def length (s : Schedule τ) : Except Fault Nat :=
  s.lengthFrom (levelLimit + 1) 0 s.first

/-- The schedule that starts at `initial`, multiplies by `factor` and stays above `minimum`. -/
def geometric (initial factor minimum : Float) : Schedule Float where
  first := initial
  above t := .ok (t > minimum)
  cooled t := .ok (t * factor)

/-- The geometric schedule of three values.  Only the initial temperature is converted at once; the
others are refused when the schedule comes to use them. -/
def ofValues (initial factor minimum : Value) : Except Fault (Schedule Float) := do
  return {
    first := ← initial.toReal
    above := fun t => Value.relate .greater (.float t) minimum
    cooled := fun t => Value.scale t factor }

/-- The number of levels of the geometric schedule of three values.  An initial temperature that is
not above the minimum has none, whatever else is wrong. -/
def lengthOfValues (initial factor minimum : Value) : Except Fault Nat := do
  if ← initial.relate .atMost minimum then return 0
  (← ofValues initial factor minimum).length

end Schedule

/-- The schedule of a search. -/
def Options.schedule (o : Options) : Schedule Float :=
  Schedule.geometric o.initialTemperature o.coolingFactor o.minimumTemperature

end Annealing
