import Annealing.Grouping.Basic
import Annealing.Value.Sort
import Annealing.Value.Compare

/-!
# Grouping — the canonical form

Two groupings are the same up to order when they differ only in the order of members within groups
and of the groups.  The canonical form of a grouping of integers has its members in ascending order
within every group, and its groups in ascending lexicographic order.

Members of other kinds are sorted by the comparisons that values have, which may refuse.
-/

namespace Annealing.Grouping

/-- Whether one group comes before another or is equal to it, compared at the first place where they
differ. -/
def atMost : List Int → List Int → Bool
  | [], _ => true
  | _ :: _, [] => false
  | a :: as, b :: bs => a < b || (a == b && atMost as bs)

/-- The canonical form of a grouping of integers. -/
def canonical (g : Grouping Int) : Grouping Int :=
  (g.map fun group => group.mergeSort (fun a b => decide (a ≤ b))).mergeSort atMost

/-- The integer that a value is. -/
def integer? : Value → Option Int
  | .int n => some n
  | _ => none

/-- The grouping of integers that a grouping of values is. -/
def integers? (g : Grouping Value) : Option (Grouping Int) :=
  g.mapM fun group => group.mapM integer?

/-- The groups of a value with their members sorted, in the order of the groups. -/
def sortGroups (groups : List Value) : Except Fault (Grouping Value) :=
  groups.mapM fun group => do Sorting.sort Value.less (← group.items)

/-- The canonical form of a grouping that a value holds. -/
def canonicalOfValue (v : Value) : Except Fault (Grouping Value) := do
  let groups ← v.items
  match (groups.mapM Value.items).toOption.bind integers? with
  | some g => return (canonical g).map fun group => group.map .int
  | none =>
      let sorted ← sortGroups groups
      Sorting.sort (fun a b => Value.less (.list a) (.list b)) sorted

end Annealing.Grouping
