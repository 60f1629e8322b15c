import Annealing.Search

/-!
# Search — scripted strategies

A scripted search walks along prescribed numbers instead of solving a problem: its states are cells
that hold an integer, the cost of a state is looked up by that integer in a list, and the random
numbers are read from another list, both over and over.  The world of the script keeps all cells and
a journal of the calls.  It thus shows what a search does with its strategy, also with one that
changes the given state in place, or fails at a call.

A state is the place of its cell.  The cell of the initial state is the first, and every copy takes
a new cell.
-/

namespace Annealing

/-- How a script makes a neighbor: a new cell with the number of the call, a new cell with the next
move added to the given one, or the given cell itself with the next move added in place. -/
inductive Moving where
  | sequence | walk | inPlace
deriving DecidableEq, Repr

/-- What a scripted search follows. -/
structure Script where
  moving : Moving
  moves : Array Int
  costs : Array Value
  uniforms : Array Float
  /-- The function that fails, and at which call. -/
  failing : Option (Role × Nat)

/-- The cells and the journal of a scripted search. -/
structure Journal where
  cells : Array Int
  copyCalls : Nat := 0
  neighborCalls : Nat := 0
  costCalls : Nat := 0
  draws : Nat := 0
  /-- What the states held that neighbors were made of. -/
  parents : Array Int := #[]
  /-- What the states held that were copied. -/
  copied : Array Int := #[]

/-- The item at a place of an array that is repeated without end. -/
def cyclic {α : Type} (items : Array α) (place : Int) (default : α) : α :=
  items.getD (place % items.size).toNat default

namespace Script

/-- Fails if this call is the one that should. -/
def check (s : Script) (role : Role) (call : Nat) : Effect Journal Unit :=
  if s.failing = some (role, call) then throw (.refused role call) else pure ()

/-- What a cell holds. -/
def content (cell : Nat) : Effect Journal Int := do
  return (← get).cells.getD cell 0

/-- A new cell. -/
def newCell (x : Int) : Effect Journal Nat := do
  let cell := (← get).cells.size
  modify fun j => { j with cells := j.cells.push x }
  return cell

/-- Copies a cell. -/
def copy (s : Script) (cell : Nat) : Effect Journal Nat := do
  modify fun j => { j with copyCalls := j.copyCalls + 1 }
  s.check .copy (← get).copyCalls
  let x ← content cell
  modify fun j => { j with copied := j.copied.push x }
  newCell x

/-- Makes a neighbor of a cell. -/
def neighbor (s : Script) (cell : Nat) : Effect Journal Nat := do
  modify fun j => { j with neighborCalls := j.neighborCalls + 1 }
  let call := (← get).neighborCalls
  s.check .neighbor call
  let x ← content cell
  modify fun j => { j with parents := j.parents.push x }
  let move := cyclic s.moves ((call : Int) - 1) 1
  match s.moving with
  | .sequence => newCell call
  | .walk => newCell (x + move)
  | .inPlace =>
      modify fun j => { j with cells := j.cells.setIfInBounds cell (x + move) }
      return cell

/-- The cost of a cell. -/
def cost (s : Script) (cell : Nat) : Effect Journal Value := do
  modify fun j => { j with costCalls := j.costCalls + 1 }
  s.check .cost (← get).costCalls
  return cyclic s.costs (← content cell) .null

/-- The next random number. -/
def draw (s : Script) : Effect Journal Float := do
  let n := (← get).draws
  modify fun j => { j with draws := n + 1 }
  return cyclic s.uniforms n 0.5

/-- The search that follows a script. -/
def search (s : Script) (options : Options) (logging : Bool) : Search Journal Nat Value where
  copy := s.copy
  neighbor := s.neighbor
  cost := s.cost
  scale := .values
  draw := s.draw
  options := options
  logging := logging

/-- Follows a script from an initial number.  The outcome is the cell of the best state. -/
def run (s : Script) (given : Value) (logging : Bool) (initial : Int) :
    Except Fault Nat × Progress Journal :=
  let act : Effect (Progress Journal) Nat := do
    let options ← Effect.ofExcept (Options.ofValue given)
    return (← (s.search options logging).run 0).best
  act.outcome { world := { cells := #[initial] }, log := #[] }

end Script

end Annealing
