import Annealing.Proofs.Number.Layout
import Annealing.Proofs.Table.Records
import Annealing.Report.Groups
import Annealing.Report.Row

/-!
# Report — the tables of a run, read again

The rows of both tables of a run begin with a number, which needs no quotes.  So each row that was
written is one row that is read, and nothing else is read.

* `Grouping.records_text`: the table of a grouping lists exactly its members, with the numbers of
  their groups and their places.
* `Trial.records_table`: the table of the log of a search lists exactly the logged trials.
-/

namespace Annealing

namespace Table

theorem Inner.of_mark {c : Char} (h : Layout.Mark c) : Inner c := by
  obtain ⟨low, high, comma, -, -⟩ := h.code
  refine ⟨by omega, by omega, ?_, ?_⟩
  · rintro rfl
    exact comma rfl
  · rintro rfl
    exact absurd low (by decide)

theorem simple_natural (n : ℕ) : Simple (Decimal.natural n) :=
  ⟨Decimal.natural_ne_nil n, fun c hc => .of_mark (Layout.mark_natural n c hc)⟩

theorem simple_integer (n : ℤ) : Simple (Decimal.integer n) :=
  ⟨Decimal.integer_ne_nil n, fun c hc => .of_mark (Layout.mark_integer n c hc)⟩

/-- The characters of a table are those of its rows, one after the other. -/
theorem chars_text (row : List Text) (rows : List (List Text)) :
    (Table.text (row :: rows)).chars =
      (Table.row row).chars ++ (rows.map fun r => (Table.row r).chars).flatten := by
  simp [Table.text, Text.chars, List.flatMap_def, List.map_flatten, Function.comp_def]

end Table

open Table

namespace Grouping

/-- The words of the first row. -/
def columnNames : List (List Char) := ["group_id", "pos", "member"].map String.toList

theorem text_eq (g : Grouping ℤ) :
    text g =
      (Table.text ((columnNames :: (seats g).map seatFields).map (·.map Text.ofChars))).chars := by
  rw [text, List.map_cons, List.map_map]
  rfl

theorem led_seats (g : Grouping ℤ) : ∀ row ∈ columnNames :: (seats g).map seatFields, Led row := by
  have names : Led columnNames := Simple.led (by decide) _
  exact List.forall_mem_cons.mpr
    ⟨names, List.forall_mem_map.mpr fun seat _ => (simple_natural seat.1).led _⟩

/-- **The table of a grouping lists exactly its members**, under the names of the columns. -/
theorem records_text (g : Grouping ℤ) :
    records (Text.Utf8.encode (text g)) =
      (columnNames.map wordOf :: (seats g).map fun seat => (seatFields seat).map wordOf, true) := by
  rw [text_eq, Table.records_text (led_seats g), List.map_cons, List.map_map]
  rfl

end Grouping

namespace Trial

theorem table_eq (log : List Trial) :
    table log =
      (Table.text
        ((Row.columns.map String.toList :: log.map fields).map (·.map Text.ofChars))).chars := by
  rw [table, List.map_cons, List.map_map (l := log)]
  rfl

theorem led_columns : Led (Row.columns.map String.toList) :=
  Simple.led (by decide) _

/-- **The table of a log lists exactly its trials**, under the names of the columns. -/
theorem records_table (log : List Trial) :
    records (Text.Utf8.encode (table log)) =
      ((Row.columns.map String.toList).map wordOf :: log.map fun t => t.fields.map wordOf,
        true) := by
  have led : ∀ row ∈ Row.columns.map String.toList :: log.map fields, Led row :=
    List.forall_mem_cons.mpr
      ⟨led_columns, List.forall_mem_map.mpr fun t _ => (simple_integer t.number).led _⟩
  rw [table_eq, Table.records_text led, List.map_cons, List.map_map (l := log)]
  rfl

end Trial

end Annealing
