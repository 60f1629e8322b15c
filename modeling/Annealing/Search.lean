import Annealing.Acceptance
import Annealing.Effect
import Annealing.Schedule

/-!
# Search — simulated annealing

A search looks for a state of low cost.  It knows of states only what its strategy supplies: how to
copy one, how to generate a neighbor, and what one costs.  At every level of the schedule it makes
the same number of trials.  A trial generates a neighbor of the current state and, by the acceptance
rule, goes on from it or not.  Independently of that, the search keeps a copy of the cheapest state
generated so far, the first of several equally cheap ones, and this is its result.

Strategies run in a world `ω` of their own, for instance a random generator.  The search adds to
it the log of its trials (`Progress`), so that a failing strategy leaves both as they were.

* `Search.run` is a whole search and `Search.attempt` is one trial.
* `Standing` is where a search stands between two trials.
* `Search.isLogged` says which trials are logged: the first, and every one whose number the period
  divides.
-/

namespace Annealing

/-- What a search needs to know about states. -/
structure Strategy (ω σ κ : Type) where
  copy : σ → Effect ω σ
  neighbor : σ → Effect ω σ
  cost : σ → Effect ω κ

/-- What a search needs to know about costs. -/
structure CostScale (κ : Type) where
  /-- Whether the first cost is below the second. -/
  less : κ → κ → Except Fault Bool
  /-- What becomes of a candidate: the current cost, the candidate's, and the temperature. -/
  judge : κ → κ → Float → Except Fault Verdict
  /-- The number that the log shows. -/
  real : κ → Except Fault Float

/-- Costs that are doubles. -/
def CostScale.doubles : CostScale Float where
  less a b := .ok (a < b)
  judge := verdict Arithmetic.doubles
  real x := .ok x

/-- Costs that are any values. -/
def CostScale.values : CostScale Value where
  less := Value.less
  judge current new t := verdict Arithmetic.values current new (.float t)
  real := Value.toReal

/-- What came of a trial: the candidate was turned down, taken though no better than the current
state, taken as better than it, or cheaper than every state before. -/
inductive Status where
  | reject | accept | improve | best
deriving DecidableEq, Repr

/-- A logged trial: its number from one, its level from zero, the temperature, the costs of the
current and the best state after it, and what came of it. -/
structure Trial where
  number : Nat
  level : Nat
  temperature : Float
  currentCost : Float
  bestCost : Float
  status : Status

/-- The world of a strategy and the log of the search in it. -/
structure Progress (ω : Type) where
  world : ω
  log : Array Trial

/-- Where a search stands between two trials. -/
structure Standing (σ κ : Type) where
  /-- The number of trials made. -/
  trials : Nat
  current : σ
  currentCost : κ
  best : σ
  bestCost : κ

/-- A strategy with everything else that a search is determined by. -/
structure Search (ω σ κ : Type) extends Strategy ω σ κ where
  scale : CostScale κ
  /-- Draws a number from `[0, 1)`. -/
  draw : Effect ω Float
  options : Options
  /-- Whether trials are logged at all. -/
  logging : Bool

namespace Search

variable {ω σ κ : Type} (S : Search ω σ κ)

/-- An effect of the strategy as an effect of the search. -/
def inWorld {α : Type} (act : Effect ω α) : Effect (Progress ω) α :=
  act.inField Progress.world fun p w => { p with world := w }

/-- Every how many trials one is logged. -/
def period : Nat := max 1 S.options.logPeriod.toNat

/-- Whether the trial of a number is logged. -/
def isLogged (number : Nat) : Bool :=
  S.logging && (number % S.period == 0 || number == 1)

/-- Adds a trial to the log. -/
def record (level : Nat) (temperature : Float) (s : Standing σ κ) (status : Status) :
    Effect (Progress ω) Unit := do
  let currentCost ← Effect.ofExcept (S.scale.real s.currentCost)
  let bestCost ← Effect.ofExcept (S.scale.real s.bestCost)
  modify fun p =>
    { p with
      log := p.log.push { number := s.trials, level, temperature, currentCost, bestCost, status } }

/-- Whether the search goes on from a candidate of this cost, and what comes of the trial if the
candidate is not the cheapest state so far. -/
def decideMove (temperature : Float) (current new : κ) : Effect ω (Bool × Status) := do
  let verdict ← Effect.ofExcept (S.scale.judge current new temperature)
  if ← verdict.settle S.draw then
    let better ← Effect.ofExcept (S.scale.less new current)
    return (true, if better then .improve else .accept)
  else return (false, .reject)

/-- One trial. -/
def attempt (level : Nat) (temperature : Float) (s : Standing σ κ) :
    Effect (Progress ω) (Standing σ κ) := do
  let candidate ← inWorld (S.neighbor s.current)
  let cost ← inWorld (S.cost candidate)
  let (moves, status) ← inWorld (S.decideMove temperature s.currentCost cost)
  let s := { s with trials := s.trials + 1 }
  let s := if moves then { s with current := candidate, currentCost := cost } else s
  let record := fun (s : Standing σ κ) (status : Status) => do
    if S.isLogged s.trials then S.record level temperature s status
    return s
  if ← Effect.ofExcept (S.scale.less cost s.bestCost) then
    let best ← inWorld (S.copy candidate)
    record { s with best, bestCost := cost } .best
  else record s status

/-- The given number of trials at one level. -/
def attempts (level : Nat) (temperature : Float) :
    Nat → Standing σ κ → Effect (Progress ω) (Standing σ κ)
  | 0, s => pure s
  | n + 1, s => do attempts level temperature n (← S.attempt level temperature s)

/-- The levels from a temperature on, of which there are less than the first argument. -/
def levels (schedule : Schedule Float) :
    Nat → Nat → Float → Standing σ κ → Effect (Progress ω) (Standing σ κ)
  | 0, _, _, _ => throw .endless
  | fuel + 1, level, temperature, s => do
      if ← Effect.ofExcept (schedule.above temperature) then
        let s ← S.attempts level temperature S.options.swapsPerTemperature.toNat s
        levels schedule fuel (level + 1) (← Effect.ofExcept (schedule.cooled temperature)) s
      else pure s

/-- Where a search starts: from one copy of the initial state, with another as the best so far. -/
def start (initial : σ) : Effect ω (Standing σ κ) := do
  let current ← S.copy initial
  let cost ← S.cost initial
  let best ← S.copy initial
  return { trials := 0, current, currentCost := cost, best, bestCost := cost }

/-- Where a search from an initial state ends. -/
def run (initial : σ) : Effect (Progress ω) (Standing σ κ) := do
  let s ← inWorld (S.start initial)
  let schedule := S.options.schedule
  S.levels schedule (Schedule.levelLimit + 1) 0 schedule.first s

end Search

end Annealing
