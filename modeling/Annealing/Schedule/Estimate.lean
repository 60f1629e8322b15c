import Annealing.Number.Binary64
import Annealing.Value.Arithmetic

/-!
# Schedule — the length in closed form

A geometric schedule from `initial` by `factor` down to `minimum` has about
`log (minimum / initial) / log factor` levels, rounded up.  Unlike the count of the levels, the
closed form needs a factor between zero and one and a quotient that has a logarithm.
-/

namespace Annealing.Schedule

/-- The natural logarithm of a positive number. -/
def logarithm (x : Float) : Except Fault Float :=
  if x ≤ 0 then .error .outsideDomain else .ok x.log

/-- The least integer not below a double. -/
def roundUp (x : Float) : Except Fault Int :=
  match Binary64.ofFloat? x with
  | some b => .ok b.ceiling
  | none => .error (if x.isNaN then .nanToInteger else .infinityToInteger)

/-- Whether a value lies strictly between zero and one. -/
def isCooling (factor : Value) : Except Fault Bool := do
  if ← Value.relate .less (.float 0) factor then factor.relate .less (.float 1) else return false

/-- The length of a geometric schedule in closed form. -/
def estimate (initial factor minimum : Value) : Except Fault Int := do
  if ← initial.relate .atMost minimum then return 0
  if !(← isCooling factor) then throw .coolingOutsideRange
  let top ← logarithm (← minimum.div initial)
  let bottom ← logarithm (← factor.toReal)
  if bottom == 0 then throw (.divisionByZero true)
  roundUp (top / bottom)

end Annealing.Schedule
