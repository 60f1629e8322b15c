import Annealing.Proofs.Text.Utf8
import Annealing.Proofs.Text.Whole
import Annealing.Proofs.Traversal
import Annealing.Table.Quoted
import Annealing.Table.Record

/-!
# Table — reading rows that were written

A field is written between quotes if it has a comma, a quote or a line end, and as it is otherwise.
Either way the reader finds the field and stops behind it, so a table is read as it was written
(`Table.records_text`, `Table.texts_text`), whatever characters its fields have.  Only the front of
a line is special, since lines of blanks are passed over: every row has to begin with a field that
is not empty and has neither blanks nor quotes (`Table.Led`).

The reader goes through the octets one by one.  Its progress over a field without quotes, over one
between quotes, over what ends a field and over a row is said once each (`Table.fold_bare`,
`Table.fold_quoted`, `Table.fold_row`), and the table follows by induction on its rows.
-/

namespace Annealing.Table

open Text.Utf8 (encode encode_append)

/-- A printable character that separates nothing. -/
def Inner (c : Char) : Prop := 0x21 ≤ c.toNat ∧ c.toNat ≤ 0x7E ∧ c ≠ ',' ∧ c ≠ '"'

/-- A field that is written as it is, and can stand anywhere. -/
structure Simple (cs : List Char) : Prop where
  nonempty : cs ≠ []
  inner : ∀ c ∈ cs, Inner c

instance (c : Char) : Decidable (Inner c) := inferInstanceAs (Decidable (_ ∧ _ ∧ _ ∧ _))

instance (cs : List Char) : Decidable (Simple cs) :=
  decidable_of_iff (cs ≠ [] ∧ cs.all fun c => Inner c)
    ⟨fun h => ⟨h.1, fun c hc => of_decide_eq_true (List.all_eq_true.mp h.2 c hc)⟩,
      fun h => ⟨h.nonempty, List.all_eq_true.mpr fun c hc => decide_eq_true (h.inner c hc)⟩⟩

/-- A row that begins with a simple field. -/
def Led (row : List (List Char)) : Prop := ∃ f rest, row = f :: rest ∧ Simple f

theorem Simple.led {f : List Char} (simple : Simple f) (rest : List (List Char)) :
    Led (f :: rest) := ⟨f, rest, rfl, simple⟩

/-- The word that is read for a field. -/
def wordOf (cs : List Char) : Word := ⟨encode cs⟩

/-- The word of a field is read as the text of the field. -/
theorem text_wordOf (cs : List Char) : (wordOf cs).text = .ok cs := Text.Utf8.decode_encode cs

/-! ### Written fields -/

/-- The characters with every quote doubled. -/
def doubledChars (cs : List Char) : List Char :=
  cs.flatMap fun c => if c = '"' then ['"', '"'] else [c]

theorem doubled_ofChars (cs : List Char) : (doubled (Text.ofChars cs)).chars = doubledChars cs := by
  induction cs with
  | nil => rfl
  | cons c rest ih =>
      have next : Text.ofChars (c :: rest) = .char c :: Text.ofChars rest := rfl
      rw [next, doubled, doubledChars, List.flatMap_cons, ← doubledChars, ← ih]
      by_cases quote : c = '"'
      · simp [quote, Text.chars, Symbol.toChar]
      · simp [quote, Text.chars, Symbol.toChar]

/-- The characters that a field is written with. -/
theorem field_chars (cs : List Char) : (Table.field (Text.ofChars cs)).chars =
    if cs.any fun c => isSpecial (.char c) then '"' :: doubledChars cs ++ ['"'] else cs := by
  rw [Table.field, Text.ofChars, List.any_map]
  change (if cs.any (fun c => isSpecial (.char c)) then _ else _ : Text).chars = _
  rw [← Text.ofChars]
  split
  · rw [← doubled_ofChars]
    simp [Text.chars, Symbol.toChar]
  · exact Text.chars_ofChars cs

/-- The characters of a row, by its first field. -/
theorem row_chars (f : List Char) (rest : List (List Char)) :
    (Table.row ((f :: rest).map Text.ofChars)).chars =
      (Table.field (Text.ofChars f)).chars ++ if rest = [] then ['\r', '\n']
        else ',' :: (Table.row (rest.map Text.ofChars)).chars := by
  cases rest with
  | nil =>
      rw [List.map_singleton, Table.row, Text.chars, List.map_append]
      rfl
  | cons g rest =>
      rw [List.map_cons, List.map_cons, Table.row, Text.chars, List.map_append]
      · rfl
      · exact List.cons_ne_nil _ _

/-- The characters of a table, by its first row. -/
theorem text_chars (row : List (List Char)) (rest : List (List (List Char))) :
    (Table.text ((row :: rest).map (·.map Text.ofChars))).chars =
      (Table.row (row.map Text.ofChars)).chars ++
        (Table.text (rest.map (·.map Text.ofChars))).chars := by
  rw [Table.text, List.map_cons, List.flatMap_cons, Text.chars, List.map_append]
  rfl

/-! ### The progress of the reader -/

/-- An octet that neither separates nor quotes. -/
structure Bare (o : UInt8) : Prop where
  ends : isLineEnd o = false
  comma : o ≠ Table.comma
  quote : o ≠ Table.quote

/-- An octet of a text that has not the ASCII character of this octet. -/
theorem ne_of_absent {cs : List Char} {o : UInt8} (h : o ∈ encode cs) {d : Char}
    (ascii : d.toNat < 0x80) (absent : d ∉ cs) :
    o.toNat ≠ d.toNat := by
  intro same
  have present := Text.Utf8.mem_of_mem_encode h (same ▸ ascii)
  rw [same, Char.ofNat_toNat] at present
  exact absent present

/-- Without a character that has to be quoted, there is no such octet. -/
theorem bare_of_plain {cs : List Char} (plain : ∀ c ∈ cs, isSpecial (.char c) = false) :
    ∀ o ∈ encode cs, Bare o := by
  have absent : ∀ d, isSpecial (.char d) = true → d ∉ cs := fun d special hd => by
    rw [plain d hd] at special
    cases special
  intro o ho
  have comma := ne_of_absent ho (d := ',') (by decide) (absent _ (by decide))
  have quote := ne_of_absent ho (d := '"') (by decide) (absent _ (by decide))
  have cr := ne_of_absent ho (d := '\r') (by decide) (absent _ (by decide))
  have lf := ne_of_absent ho (d := '\n') (by decide) (absent _ (by decide))
  refine ⟨?_, fun same => comma (same ▸ rfl), fun same => quote (same ▸ rfl)⟩
  rw [isLineEnd, Bool.or_eq_false_iff, decide_eq_false_iff_not, decide_eq_false_iff_not]
  exact ⟨fun same => lf (same ▸ rfl), fun same => cr (same ▸ rfl)⟩

theorem Inner.special {c : Char} (h : Inner c) : isSpecial (.char c) = false := by
  obtain ⟨low, -, comma, quote⟩ := h
  have cr : c ≠ '\r' := by
    rintro rfl
    exact absurd low (by decide)
  have lf : c ≠ '\n' := by
    rintro rfl
    exact absurd low (by decide)
  simp [isSpecial, comma, quote, cr, lf]

/-- In a field outside quotes, or behind a field. -/
def Place.Outside (place : Place) : Prop := place = .fresh ∨ place = .plain ∨ place = .closing

/-- The reader stands before a field, which has to be simple at the front of a line. -/
structure Progress.Before (p : Progress) (cs : List Char) : Prop where
  field : p.field = []
  place : p.place = .fresh ∨ p.place = .line ∧ Simple cs

/-- Octets outside quotes are added to the field that has begun. -/
theorem fold_bare {octets : List UInt8} (bare : ∀ o ∈ octets, Bare o) :
    ∀ {p : Progress}, p.place = .fresh ∨ p.place = .plain →
    ∃ place, (place = .fresh ∨ place = .plain) ∧
      octets.foldl Progress.step p = { p with place, field := octets.reverse ++ p.field } := by
  induction octets with
  | nil => exact fun {p} here => ⟨p.place, here, rfl⟩
  | cons o rest ih =>
      intro p here
      have first := bare o List.mem_cons_self
      have step : p.step o = p.push .plain o := by
        rcases here with here | here <;>
          simp [Progress.step, here, Progress.atFront, Progress.inField, first.ends, first.comma,
            first.quote]
      obtain ⟨place, inside, read⟩ := ih (fun x hx => bare x (List.mem_cons_of_mem o hx))
        (p := p.push .plain o) (.inr rfl)
      refine ⟨place, inside, ?_⟩
      rw [List.foldl_cons, step, read]
      simp [Progress.push]

/-- Octets between quotes are added to the field, whatever they are. -/
theorem fold_between {octets : List UInt8} (inside : ∀ o ∈ octets, o ≠ quote) :
    ∀ {p : Progress}, p.place = .quoted →
    octets.foldl Progress.step p = { p with field := octets.reverse ++ p.field } := by
  induction octets with
  | nil => exact fun _ => rfl
  | cons o rest ih =>
      intro p quoted
      have step : p.step o = p.push .quoted o := by
        simp [Progress.step, quoted, inside o List.mem_cons_self]
      rw [List.foldl_cons, step, ih (fun x hx => inside x (List.mem_cons_of_mem o hx)) rfl]
      simp [Progress.push, quoted]

theorem encode_quote : encode ['"'] = [quote] := by decide

/-- Between quotes, two quotes are read as one. -/
theorem fold_doubled (cs : List Char) : ∀ {p : Progress}, p.place = .quoted →
    (encode (doubledChars cs)).foldl Progress.step p = { p with
      field := (encode cs).reverse ++ p.field } := by
  induction cs with
  | nil => exact fun _ => rfl
  | cons c rest ih =>
      intro p quoted
      have octets : encode (c :: rest) = encode [c] ++ encode rest := encode_append [c] rest
      rw [doubledChars, List.flatMap_cons, ← doubledChars, encode_append, List.foldl_append, octets]
      by_cases isQuote : c = '"'
      · -- the first of the two might close the field, the second says that it does not
        have twice : encode ['"', '"'] = [quote, quote] := by decide
        have read :
            [quote, quote].foldl Progress.step p = { p with field := quote :: p.field } := by
          simp [Progress.step, quoted, Progress.push]
        rw [if_pos isQuote, twice, read, ih (p := { p with field := quote :: p.field }) quoted,
          isQuote, encode_quote]
        simp
      · have inside : ∀ o ∈ encode [c], o ≠ quote := by
          rintro o ho rfl
          exact ne_of_absent ho (d := '"') (by decide)
            (by simpa using fun same => isQuote same.symm) rfl
        rw [if_neg isQuote, fold_between inside quoted,
          ih (p := { p with field := (encode [c]).reverse ++ p.field }) quoted]
        simp

/-- A field between quotes is read up to its last quote. -/
theorem fold_quoted (cs : List Char) {p : Progress}
    (fresh : p.place = .fresh) (empty : p.field = []) :
    (encode ('"' :: doubledChars cs ++ ['"'])).foldl Progress.step p = { p with
      place := .closing, field := (encode cs).reverse } := by
  have opened : [quote].foldl Progress.step p = { p with place := .quoted } := by
    simp [Progress.step, fresh, Progress.atFront]
  rw [List.cons_append, ← List.singleton_append, encode_append, encode_append, encode_quote,
    List.foldl_append, List.foldl_append, opened, fold_doubled cs rfl]
  simp [Progress.step, empty]

/-- The first octet of a simple field is its first character, which is no blank. -/
theorem Simple.first {cs : List Char} (simple : Simple cs) :
    ∃ o rest, encode cs = o :: rest ∧ isSpace o = false ∧ o < 0x80 := by
  obtain ⟨c, rest, rfl⟩ := List.exists_cons_of_ne_nil simple.nonempty
  obtain ⟨low, high, -⟩ := simple.inner c List.mem_cons_self
  have code := Text.Utf8.toNat_ofNat (n := c.toNat) (by omega)
  refine ⟨UInt8.ofNat c.toNat, encode rest, ?_, ?_, ?_⟩
  · rw [encode, List.flatMap_cons, Text.Utf8.encodeChar, if_pos (by omega)]
    rfl
  · generalize UInt8.ofNat c.toNat = o at code
    rw [isSpace, Bool.or_eq_false_iff, decide_eq_false_iff_not, decide_eq_false_iff_not]
    constructor <;> rintro rfl
    · exact absurd low (by rw [← code]; decide)
    · exact absurd low (by rw [← code]; decide)
  · rw [UInt8.lt_iff_toNat_lt, code]
    exact Nat.lt_of_le_of_lt high (by decide)

/-- At the front of a line, a simple field begins with its first octet. -/
theorem fold_simple {cs : List Char} (simple : Simple cs) {p : Progress}
    (line : p.place = .line) (empty : p.field = []) :
    ∃ place, (place = .fresh ∨ place = .plain) ∧
      (encode cs).foldl Progress.step p = { p with place, field := (encode cs).reverse } := by
  have bare := bare_of_plain fun c hc => (simple.inner c hc).special
  obtain ⟨o, rest, octets, space, -⟩ := simple.first
  rw [octets] at bare ⊢
  have first := bare o List.mem_cons_self
  have step : p.step o = p.push .plain o := by
    simp [Progress.step, line, empty, Progress.atFront, Progress.inField, space, first.ends,
      first.comma, first.quote]
  obtain ⟨place, inside, read⟩ :=
    fold_bare (fun x hx => bare x (List.mem_cons_of_mem o hx)) (p := p.push .plain o) (.inr rfl)
  refine ⟨place, inside, ?_⟩
  rw [List.foldl_cons, step, read]
  simp [Progress.push, empty]

/-- **A field is found as it was**, with quotes or without. -/
theorem fold_field (cs : List Char) {p : Progress} (before : p.Before cs) :
    ∃ place : Place, place.Outside ∧
    (encode (Table.field (Text.ofChars cs)).chars).foldl Progress.step p = { p with
      place, field := (encode cs).reverse } := by
  obtain ⟨empty, here⟩ := before
  rw [field_chars]
  by_cases special : cs.any fun c => isSpecial (.char c)
  · rw [if_pos special]
    rcases here with fresh | ⟨-, simple⟩
    · exact ⟨.closing, .inr (.inr rfl), fold_quoted cs fresh empty⟩
    · obtain ⟨c, hc, special⟩ := List.any_eq_true.mp special
      rw [(simple.inner c hc).special] at special
      cases special
  · rw [if_neg special]
    have plain : ∀ c ∈ cs, isSpecial (.char c) = false := by simpa using special
    have read : ∃ place, (place = .fresh ∨ place = .plain) ∧
        (encode cs).foldl Progress.step p = { p with place, field := (encode cs).reverse } := by
      rcases here with fresh | ⟨line, simple⟩
      · simpa [empty] using fold_bare (bare_of_plain plain) (p := p) (.inl fresh)
      · exact fold_simple simple line empty
    obtain ⟨place, inside, read⟩ := read
    exact ⟨place, inside.imp id .inl, read⟩

/-- What ends a row. -/
theorem fold_lineEnd {p : Progress} (outside : p.place.Outside) :
    (encode ['\r', '\n']).foldl Progress.step p = p.endRow := by
  -- the first of the two ends the row, and the second a line without fields, which is passed over
  have octets : encode ['\r', '\n'] = [0x0D, 0x0A] := by decide
  have ends : isLineEnd 0x0D = true ∧ isLineEnd 0x0A = true := by decide
  have other : (0x0D : UInt8) ≠ quote := by decide
  rcases outside with here | here | here <;>
    simp [octets, Progress.step, here, Progress.atFront, Progress.inField, ends, other,
      Progress.endRow]

/-- What stands between two fields. -/
theorem fold_comma {p : Progress} (outside : p.place.Outside) :
    (encode [',']).foldl Progress.step p = p.endField := by
  have octets : encode [','] = [comma] := by decide
  have inside : isLineEnd comma = false := by decide
  have other : comma ≠ quote := by decide
  rcases outside with here | here | here <;>
    simp [octets, Progress.step, here, Progress.atFront, Progress.inField, inside, other]

/-- **A row is read field by field.** -/
theorem fold_row (f : List Char) (rest : List (List Char)) {p : Progress} (before : p.Before f) :
    (encode (Table.row ((f :: rest).map Text.ofChars)).chars).foldl Progress.step p =
      { place := .line, field := [], row := [],
        rows := (p.row.reverse ++ (f :: rest).map wordOf) :: p.rows } := by
  induction rest generalizing f p with
  | nil =>
      obtain ⟨place, outside, read⟩ := fold_field f before
      rw [row_chars, if_pos rfl, encode_append, List.foldl_append, read, fold_lineEnd outside]
      simp [Progress.endRow, wordOf]
  | cons g rest ih =>
      obtain ⟨place, outside, read⟩ := fold_field f before
      rw [row_chars, if_neg nofun, encode_append, ← List.singleton_append, encode_append,
        List.foldl_append, List.foldl_append, read, fold_comma outside, ih g ⟨rfl, .inl rfl⟩]
      simp [Progress.endField, wordOf]

/-- All rows are read one after the other. -/
theorem fold_rows {rows : List (List (List Char))} (led : ∀ row ∈ rows, Led row) :
    ∀ {before : List (List Word)},
    (encode (Table.text (rows.map (·.map Text.ofChars))).chars).foldl Progress.step
        ⟨.line, [], [], before⟩ =
      ⟨.line, [], [], (rows.map (·.map wordOf)).reverse ++ before⟩ := by
  induction rows with
  | nil => exact rfl
  | cons row rest ih =>
      intro before
      obtain ⟨f, fields, rfl, simple⟩ := led row List.mem_cons_self
      rw [text_chars, encode_append, List.foldl_append, fold_row f fields ⟨rfl, .inr ⟨rfl, simple⟩⟩,
        ih fun r hr => led r (List.mem_cons_of_mem _ hr)]
      simp

/-- Octets that start with ASCII have no byte order mark in front. -/
theorem withoutMark_of_ascii {octets : List UInt8} (ascii : ∀ o, octets.head? = some o → o < 0x80) :
    withoutMark octets = octets := by
  unfold withoutMark
  split
  · exact absurd (ascii _ rfl) (by decide)
  · rfl

/-- **A table is read as it was written**, if each of its rows begins with a simple field. -/
theorem records_text {rows : List (List (List Char))} (led : ∀ row ∈ rows, Led row) :
    records (encode (Table.text (rows.map (·.map Text.ofChars))).chars) =
      (rows.map (·.map wordOf), true) := by
  have ascii : ∀ o, (encode (Table.text (rows.map (·.map Text.ofChars))).chars).head? = some o →
      o < 0x80 := by
    cases rows with
    | nil => exact nofun
    | cons row rest =>
        obtain ⟨f, fields, rfl, simple⟩ := led row List.mem_cons_self
        obtain ⟨first, others, octets, -, small⟩ := simple.first
        intro o ho
        rw [text_chars, row_chars, field_chars,
          if_neg (by simpa using fun c hc => (simple.inner c hc).special), encode_append,
          encode_append, octets] at ho
        cases ho
        exact small
  rw [records, withoutMark_of_ascii ascii]
  simp only [Progress.empty, fold_rows led]
  simp [Progress.finish]

/-! ### Tables of texts -/

/-- The fields of all rows of a file, as texts.  A file that ends inside quotes is no table. -/
def texts (octets : List UInt8) : Except Fault (List (List (List Char))) :=
  if (records octets).2 then (records octets).1.mapM (·.mapM Word.text) else .error .malformedTable

/-- **The fields of a written table are read as they were**, if each of its rows begins with a
simple field. -/
theorem texts_text {rows : List (List (List Char))} (led : ∀ row ∈ rows, Led row) :
    texts (encode (Table.text (rows.map (·.map Text.ofChars))).chars) = .ok rows := by
  rw [texts, records_text led, if_pos rfl]
  exact mapM_ok_of_inverse fun row _ => mapM_ok_of_inverse fun cs _ => text_wordOf cs

end Annealing.Table
