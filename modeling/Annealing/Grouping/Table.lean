import Annealing.Grouping.Basic
import Annealing.Table.Basic
import Annealing.Value.Compare

/-!
# Grouping — groupings in tables

A table with the columns `group` and `member` holds a grouping: every row puts its member into the
group of its key.  The groups stand in ascending order of their keys, the members of a group in the
order of their rows.  A row without a key counts for nothing.

* `Grouping.byKey` collects rows by their keys.
* `Grouping.ofTable` is the grouping that a table holds.
-/

namespace Annealing.Grouping

/-- Whether one key may stand before another. -/
def mayPrecede (a b : Value) : Bool :=
  match Value.relate .atMost a b with
  | .ok before => before
  | .error _ => true

/-- The items of pairs with the same key, by ascending key, each in the order in which they came. -/
def byKey {α : Type} (rows : List (Value × α)) : Grouping α :=
  let sorted := rows.mergeSort fun r s => mayPrecede r.1 s.1
  (sorted.splitBy fun r s => r.1.same s.1).map fun group => group.map (·.2)

/-- The rows that have a key. -/
def keyed {α : Type} (keys : List (Option Value)) (items : List α) : List (Value × α) :=
  (keys.zip items).filterMap fun r => r.1.map fun key => (key, r.2)

/-- The grouping that a table holds. -/
def ofTable (t : Table) : Except Fault (Grouping Int) :=
  match t.cells? "group", t.cells? "member" with
  | some groups, some members =>
      (byKey (keyed (groups.map Table.Cell.key?) members)).mapM fun group =>
        group.mapM Table.Cell.member
  | _, _ => .error .lacksGroupColumns

end Annealing.Grouping
