import Annealing.Grouping.Basic
import Annealing.Preferences
import Annealing.Value.Shape

/-!
# Grouping — scores and costs

The score of a group is the sum of the preferences of its pairs, earlier members before later ones.
The cost of a grouping is minus the sum of the logarithms of the scores; groups whose score is not
above zero do not count.

* `pairs` lists the pairs in the order in which they are added up.
* `Grouping.cost` refuses a member that is no row of the preferences.
* `Grouping.costOfValue` is the cost of a grouping that comes from outside: members are converted to
  integers of 64 bits.
-/

namespace Annealing

/-- The pairs of an earlier and a later item, by the place of the first, then of the second. -/
def pairs {α : Type} : List α → List (α × α)
  | [] => []
  | a :: rest => rest.map (a, ·) ++ pairs rest

/-- The sum of numbers from left to right, starting from zero. -/
def total (xs : List Float) : Float :=
  xs.foldl (· + ·) 0

/-- The sum of the preferences of all pairs. -/
def Preferences.score (p : Preferences) (members : List Nat) : Except Fault Float := do
  return total (← (pairs members).mapM fun ab => p.lookup ab.1 ab.2)

namespace Grouping

/-- The members as numbers of rows, none if one of them is no row. -/
def rowNumbers (rows : Nat) (members : List Int) : Option (List Nat) :=
  members.mapM fun m => if 0 ≤ m ∧ m.toNat < rows then some m.toNat else none

/-- The score of a group.  `shown` is the group as a message shows it. -/
def groupScore (p : Preferences) (shown : List Value) (members : List Int) : Except Fault Float :=
  match rowNumbers p.rows members with
  | some rows => p.score rows
  | none => .error (.memberOutside p.rows shown)

/-- The cost with a further group of this score. -/
def addScore (cost score : Float) : Float :=
  if score > 0 then cost - score.log else cost

/-- The cost of a grouping. -/
def cost (p : Preferences) (g : Grouping Int) : Except Fault Float :=
  g.foldlM (fun cost group => do
    return addScore cost
      (← groupScore p (group.map .int) (← group.mapM fun m => Value.toWord (.int m)))) 0

/-! ### Groupings from outside -/

/-- The members of a group whose members are rows of that many members themselves. -/
def rowsOf (width : Nat) : (count : Nat) → List Nat → List (List Nat)
  | 0, _ => []
  | count + 1, members => members.take width :: rowsOf width count (members.drop width)

/-- The preferences of two rows of members, place by place. -/
def lookupRows (p : Preferences) (first second : List Nat) : Except Fault (List Float) :=
  (first.zip second).mapM fun ab => p.lookup ab.1 ab.2

/-- The sums of the preferences of the pairs of rows, place by place. -/
def rowScores (p : Preferences) (width : Nat) (rows : List (List Nat)) :
    Except Fault (List Float) :=
  (pairs rows).foldlM (fun totals ab => do
    return List.zipWith (· + ·) totals (← lookupRows p ab.1 ab.2)) (List.replicate width 0)

/-- The score that counts in a cost, of several scores side by side: one alone must not be above
zero, since the logarithm is that of a number. -/
def onlyScore : List Float → Except Fault Float
  | [] => .error .emptyTruth
  | [score] => if score > 0 then .error .notScalar else .ok score
  | _ => .error .ambiguousTruth

/-- The score of a group that a value holds.  Lists inside the list are scored place by place. -/
def scoreOfValue (p : Preferences) (group : Value) : Except Fault Float := do
  let shape ← group.shape
  let members ← group.scalars.mapM Value.toWord
  match rowNumbers p.rows members with
  | none => throw (.memberOutside p.rows (← group.items))
  | some rows =>
      match shape with
      | [] => throw .scalarGroup
      | [_] => p.score rows
      | length :: inner =>
          if length < 2 then return 0
          else
            let width := inner.foldl (· * ·) 1
            onlyScore (← rowScores p width (rowsOf width length rows))

/-- The cost of a grouping that a value holds. -/
def costOfValue (p : Preferences) (g : Value) : Except Fault Float := do
  (← g.items).foldlM (fun cost group => do return addScore cost (← scoreOfValue p group)) 0

end Grouping

end Annealing
