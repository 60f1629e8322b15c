import Annealing.Value.Convert

/-!
# Grouping — members in groups

A grouping is a list of groups, and a group is a list of members.  Members are integers; where a
grouping comes from outside they may be values of any kind, to be converted when they are used.

* `Grouping.ofValue` reads a grouping from a value, members as they are.
* `Grouping.membersOfValue` lists the members of a value as integers.
-/

namespace Annealing

/-- Members in groups. -/
abbrev Grouping (α : Type) := List (List α)

namespace Grouping

/-- All members, group by group. -/
def members {α : Type} (g : Grouping α) : List α := g.flatten

/-- The greatest member, zero if there is none. -/
def greatest (members : List Int) : Int :=
  members.max?.getD 0

/-- The grouping that a value holds. -/
def ofValue (v : Value) : Except Fault (Grouping Value) := do
  (← v.items).mapM Value.items

/-- The value that holds a grouping. -/
def toValue (g : Grouping Value) : Value :=
  .list (g.map .list)

/-- The integers among the items of a group. -/
def memberRow (group : Value) : Except Fault (List Int) := do
  (← group.items).mapM Value.toInt

/-- The members of a grouping that a value holds, as integers. -/
def membersOfValue (v : Value) : Except Fault (List Int) := do
  return (← (← v.items).mapM memberRow).flatten

end Grouping

end Annealing
