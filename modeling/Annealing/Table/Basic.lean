import Annealing.Table.Column
import Annealing.Table.Record

/-!
# Table — tables with named columns

The first row of a table names its columns, the others hold their words.  A row that is shorter than
the one before it has empty words at its end, and only the first row below the names may be longer
than the one before.  Its words in excess belong to columns without a name, which stand in front of
the others.

* `Table.ofOctets` reads a table.  The names are read as soon as the row below them is complete, the
  other rows next, and the columns last, from left to right; so a name that is no text counts more
  than a third row that does not fit, and that more than a word that is no text.
* `Table.cells?` are the cells of the first column of a name.
-/

namespace Annealing

/-- A table: columns of cells under their names.  All have the same length. -/
structure Table where
  columns : List (List Char × List Table.Cell)
  height : Nat

namespace Table

/-- A row with empty words at its end, up to a length. -/
def padded (length : Nat) (row : List Word) : List Word :=
  row ++ List.replicate (length - row.length) ⟨[]⟩

/-- Rows of the same length as the first of them, below a row of names of which there are `names`;
none if one of the others is longer. -/
def aligned (names : Nat) : List (List Word) → Option (List (List Word))
  | [] => some []
  | first :: rest =>
      let first := padded names first
      if rest.any fun row => first.length < row.length then none
      else some (first :: rest.map (padded first.length))

/-- The words at one place of all rows. -/
def wordsAt (rows : List (Array Word)) (place : Nat) : List Word :=
  rows.map fun row => row.getD place ⟨[]⟩

/-- The columns of rows that all have a length. -/
def columnsOf (width : Nat) (rows : List (List Word)) : Except Fault (List (List Cell)) :=
  let rows := rows.map List.toArray
  (List.range width).mapM fun place => Column.ofWords (wordsAt rows place)

/-- The count of columns: that of the rows if there are any, else that of the names. -/
def widthOf (names : Nat) : List (List Word) → Nat
  | [] => names
  | row :: _ => row.length

/-- The table of a row of names and the rows below it.  `closed` says whether the file ends outside
quotes. -/
def ofRecords (names : List Word) (rows : List (List Word)) (closed : Bool) :
    Except Fault Table := do
  if !closed && rows.isEmpty then throw .malformedTable
  let names ← names.mapM Word.text
  if !closed then throw .malformedTable
  match aligned names.length rows with
  | none => throw .malformedTable
  | some rows =>
      let width := widthOf names.length rows
      let columns ← columnsOf width rows
      return { columns := names.zip (columns.drop (width - names.length)), height := rows.length }

/-- The table that a file holds. -/
def ofOctets (octets : List UInt8) : Except Fault Table :=
  match records octets with
  | (names :: rows, closed) => ofRecords names rows closed
  | ([], closed) => .error (if closed then .noColumns else .malformedTable)

/-- The cells of the first column of a name. -/
def cells? (t : Table) (name : String) : Option (List Cell) :=
  (t.columns.find? fun c => c.1 == name.toList).map (·.2)

end Table

end Annealing
