import Annealing.Search
import Annealing.Text.Utf8
import Annealing.Value.Shape
import Annealing.Value.Show
import Annealing.Table.Quoted

/-!
# Report — the log of a search

The log has a row for every logged trial: number, level, temperature, cost of the current and of the
best state, and what came of it.  Rows may also be made of arbitrary values that convert to these
(`Row.ofValues`).  A log can be asked for one column, for its numeric columns as arrays, and for the
text of the table that holds it.

* `Row.table` writes the table of any rows, one by one.  It ends with the first row that has a
  number of too many digits, or a status that has no characters.
* `Trial.table` is the table of the log of a search.  It counts its trials and its levels, and no
  search makes so many that their numbers have too many digits.
-/

namespace Annealing

/-- The word for what came of a trial. -/
def Status.word : Status → String
  | .reject => "REJECT"
  | .accept => "ACCEPT"
  | .improve => "IMPROVE"
  | .best => "BEST"

/-- A row of the log. -/
structure Row where
  trial : Int
  level : Int
  temperature : Float
  currentCost : Float
  bestCost : Float
  status : Value

/-- The row of a logged trial. -/
def Trial.row (t : Trial) : Row where
  trial := t.number
  level := t.level
  temperature := t.temperature
  currentCost := t.currentCost
  bestCost := t.bestCost
  status := .ofString t.status.word

namespace Row

/-- A row of values, converted in their order; the status stays as it is. -/
def ofValues (trial level temperature currentCost bestCost status : Value) : Except Fault Row := do
  return {
    trial := ← trial.toInt
    level := ← level.toInt
    temperature := ← temperature.toReal
    currentCost := ← currentCost.toReal
    bestCost := ← bestCost.toReal
    status }

/-- The names of the columns. -/
def columns : List String := ["trial", "level", "temp", "curr_cost", "best_cost", "status"]

/-- The values of a row under the names of the columns. -/
def values (r : Row) : List Value :=
  [.int r.trial, .int r.level, .float r.temperature, .float r.currentCost,
    .float r.bestCost, r.status]

/-- The values of one column. -/
def column (rows : List Row) (name : String) : Except Fault (List Value) :=
  match columns.idxOf? name with
  | some place => .ok (rows.map fun r => r.values.getD place .null)
  | none => .error .unknownColumn

/-- The text of a value in a table: nothing for null, otherwise the value as it stands alone. -/
def cell : Value → Except Fault Text
  | .null => .ok []
  | v => v.written

/-- The line of a row. -/
def line (r : Row) : Except Fault (List Char) := do
  Text.Utf8.characters (Table.row (← r.values.mapM cell))

/-- The text of the table of a log. -/
def table (rows : List Row) : Except Fault (List Char) := do
  return (Table.row (columns.map Text.ofString)).chars ++ (← rows.mapM line).flatten

end Row

namespace Trial

/-- What the table of a log says of a trial. -/
def fields (t : Trial) : List (List Char) :=
  [Decimal.integer t.number, Decimal.integer t.level, Layout.plain.float t.temperature,
   Layout.plain.float t.currentCost, Layout.plain.float t.bestCost, t.status.word.toList]

/-- The text of the table of the log of a search. -/
def table (log : List Trial) : List Char :=
  (Table.text (Row.columns.map Text.ofString :: log.map fun t => t.fields.map Text.ofChars)).chars

end Trial

/-- The numbers of an array, all integers of 64 bits or all doubles. -/
inductive Cells where
  | words (xs : List Int)
  | doubles (xs : List Float)

/-- An array of numbers under a name, with its lengths along the axes. -/
structure Series where
  name : String
  shape : List Nat
  cells : Cells

namespace Series

/-- The array of one column of integers, which must fit into 64 bits. -/
def words (name : String) (xs : List Int) : Except Fault Series := do
  return { name, shape := [xs.length], cells := .words (← xs.mapM fun n => Value.toWord (.int n)) }

/-- The array of one column of doubles. -/
def doubles (name : String) (xs : List Float) : Series :=
  { name, shape := [xs.length], cells := .doubles xs }

/-- The numeric columns of a log. -/
def ofRows (rows : List Row) : Except Fault (List Series) := do
  return [
    ← words "trials" (rows.map Row.trial),
    ← words "levels" (rows.map Row.level),
    doubles "curr" (rows.map Row.currentCost),
    doubles "best" (rows.map Row.bestCost),
    doubles "temp" (rows.map Row.temperature)]

end Series

end Annealing
