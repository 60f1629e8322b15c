import Annealing.Grouping.Basic
import Annealing.Table.Quoted
import Annealing.Value.Show

/-!
# Report — the table of a grouping

The table of a grouping has a row for every member: the number of its group counted from zero, its
place in the group counted from one, and the member.

* `Grouping.tableOfValue` writes the table of any value, row by row.  It ends with the first member
  that is no integer, or whose row has a number of too many digits.
* `Grouping.text` is the table of a grouping that a search has found.  Its members are places in a
  matrix, so all of its rows are written.
-/

namespace Annealing.Grouping

/-- The names of the columns. -/
def columns : List Text := ["group_id", "pos", "member"].map Text.ofString

/-- The row of a member, if its numbers have not too many digits. -/
def memberLine (group place : Nat) (member : Int) : Except Fault (List Char) := do
  let fields ← [(group : Int), place, member].mapM fun n => (Value.int n).written
  return (Table.row fields).chars

/-- The rows of the members of one group, from a place on. -/
def memberLines (group : Nat) : Nat → List Value → Except Fault (List Char)
  | _, [] => return []
  | place, m :: rest => do
      let line ← memberLine group place (← m.toInt)
      return line ++ (← memberLines group (place + 1) rest)

/-- The rows of the members of all groups, the first of which has the given number. -/
def groupLines : Nat → List Value → Except Fault (List Char)
  | _, [] => return []
  | group, v :: rest => do
      let lines ← memberLines group 1 (← v.items)
      return lines ++ (← groupLines (group + 1) rest)

/-- The text of the table of a grouping that a value holds. -/
def tableOfValue (v : Value) : Except Fault (List Char) := do
  return (Table.row columns).chars ++ (← groupLines 0 (← v.items))

/-- The members of a grouping: the number of the group from zero, the place in it from one, and the
member. -/
def seats (g : Grouping Int) : List (Nat × Nat × Int) :=
  g.zipIdx.flatMap fun group =>
    (group.1.zipIdx 1).map fun member => (group.2, member.2, member.1)

/-- What the table says of a member. -/
def seatFields (seat : Nat × Nat × Int) : List (List Char) :=
  [Decimal.natural seat.1, Decimal.natural seat.2.1, Decimal.integer seat.2.2]

/-- The text of the table of a grouping whose numbers have few digits. -/
def text (g : Grouping Int) : List Char :=
  (Table.text (columns :: (seats g).map fun seat => (seatFields seat).map Text.ofChars)).chars

end Annealing.Grouping
