import Annealing.Effect
import Annealing.Grouping.Basic
import Annealing.Random.Generator

/-!
# Grouping — swapping two members

The neighbor of a grouping is made by swapping a member of one group with a member of another.
Which ones is drawn: first an ordered pair of the groups that are not empty (the *candidates*), then
a place in each of the two.  With fewer than two candidates nothing is drawn and nothing changes.

* `Swap` names two groups and a place in each, and `Swap.apply` exchanges the members there.
* `Grouping.drawSwap` draws a swap from any source of random numbers (`Draws`).
-/

namespace Annealing

/-- A source of random numbers: an ordered pair of different numbers below a limit, and a number
below a limit. -/
structure Draws (ω : Type) where
  pair : Nat → Effect ω (Nat × Nat)
  below : Nat → Effect ω Nat

/-- The draws of a generator. -/
def Generator.draws : Draws Generator where
  pair n := Effect.ofStep (Generator.pair n)
  below n := Effect.ofStep (Generator.below n)

/-- Two groups and a place in each. -/
structure Swap where
  first : Nat
  firstPlace : Nat
  second : Nat
  secondPlace : Nat
deriving DecidableEq, Repr

namespace Grouping

variable {α : Type}

/-- The member at a place of a group. -/
def member? (g : Grouping α) (group place : Nat) : Option α :=
  g[group]?.bind (·[place]?)

/-- The grouping with the member at a place of a group replaced. -/
def replace (g : Grouping α) (group place : Nat) (m : α) : Grouping α :=
  g.modify group (·.set place m)

/-- The numbers of the groups that are not empty, counted from `start`. -/
def candidatesFrom (start : Nat) : Grouping α → List Nat
  | [] => []
  | [] :: rest => candidatesFrom (start + 1) rest
  | _ :: rest => start :: candidatesFrom (start + 1) rest

/-- The numbers of the groups that are not empty. -/
def candidates (g : Grouping α) : List Nat := candidatesFrom 0 g

/-- The length of a group. -/
def groupSize (g : Grouping α) (group : Nat) : Nat :=
  (g[group]?.map List.length).getD 0

end Grouping

/-- The grouping with the members at two places exchanged. -/
def Swap.apply {α : Type} (s : Swap) (g : Grouping α) : Grouping α :=
  match g.member? s.first s.firstPlace, g.member? s.second s.secondPlace with
  | some a, some b =>
      (g.replace s.first s.firstPlace b).replace s.second s.secondPlace a
  | _, _ => g

namespace Grouping

variable {α ω : Type}

/-- A swap between two candidates; none if there are fewer than two. -/
def drawSwap (draws : Draws ω) (g : Grouping α) : Effect ω (Option Swap) := do
  let candidates := g.candidates
  if candidates.length < 2 then return none
  let (i, j) ← draws.pair candidates.length
  let first := candidates.getD i 0
  let second := candidates.getD j 0
  let firstPlace ← draws.below (g.groupSize first)
  let secondPlace ← draws.below (g.groupSize second)
  return some { first, firstPlace, second, secondPlace }

/-- A grouping with two members of different groups exchanged. -/
def neighbor (draws : Draws ω) (g : Grouping α) : Effect ω (Grouping α) := do
  match ← drawSwap draws g with
  | some s => return s.apply g
  | none => return g

end Grouping

end Annealing
