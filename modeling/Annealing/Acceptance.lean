import Annealing.Value.Arithmetic

/-!
# Acceptance — whether the search goes on from a candidate

A candidate that costs less than the current state is always accepted.  Any other is accepted with
the probability `exp (-(new - current) / temperature)`, and never when the temperature is zero or
below.

`verdict` says which of the three cases holds and leaves the chance open, so that the random number
is drawn only where it matters; `Verdict.settle` asks for it.  The rule is written over an
`Arithmetic`, the few operations on costs and temperatures that it uses.  Searches use the
arithmetic of doubles or that of values.
-/

namespace Annealing

/-- The operations on costs `κ`, temperatures `θ` and differences of costs `δ` that acceptance
uses. -/
structure Arithmetic (κ θ δ : Type) where
  /-- What the new cost (second) is above the current one (first). -/
  gap : κ → κ → Except Fault δ
  isBelowZero : δ → Bool
  /-- Whether a temperature is zero or below. -/
  isCold : θ → Except Fault Bool
  /-- The negated difference by the temperature. -/
  exponent : δ → θ → Except Fault Float
  exp : Float → Float

/-- The arithmetic of doubles. -/
def Arithmetic.doubles : Arithmetic Float Float Float where
  gap current new := .ok (new - current)
  isBelowZero d := d < 0
  isCold t := .ok (t ≤ 0)
  exponent d t := .ok (-d / t)
  exp := Float.exp

/-- The arithmetic of values. -/
def Arithmetic.values : Arithmetic Value Value Number where
  gap current new := new.sub current
  isBelowZero d := (d.compare? (.float 0)).any (· == .lt)
  isCold t := t.relate .atMost (.float 0)
  exponent d t := d.neg.toValue.div t
  exp := Float.exp

/-- What becomes of a candidate. -/
inductive Verdict where
  | accepted
  | rejected
  /-- Accepted if the probability is above a number drawn from `[0, 1)`. -/
  | chance (probability : Float)

/-- What becomes of a candidate of cost `new` at a temperature. -/
def verdict {κ θ δ : Type} (A : Arithmetic κ θ δ) (current new : κ) (temperature : θ) :
    Except Fault Verdict := do
  let d ← A.gap current new
  if A.isBelowZero d then return .accepted
  if ← A.isCold temperature then return .rejected
  return .chance (A.exp (← A.exponent d temperature))

/-- The decision, for which `draw` is asked only if the verdict leaves it open. -/
def Verdict.settle {m : Type → Type} [Monad m] (draw : m Float) : Verdict → m Bool
  | .accepted => pure true
  | .rejected => pure false
  | .chance p => do return p > (← draw)

end Annealing
