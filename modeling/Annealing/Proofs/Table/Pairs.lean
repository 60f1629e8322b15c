import Annealing.Proofs.Report.Tables
import Annealing.Proofs.Table.Named

/-!
# Table — writing pairs of integers

`Table.ofPairs` writes pairs of integers as a table with two named columns.  The words of this table
write the integers (`Table.writes_integer`), so reading it gives two columns of them
(`Table.ofOctets_ofPairs`).
-/

namespace Annealing.Table

/-- Fields that need no quotes are read as characters. -/
theorem Simple.chars_wordOf {cs : List Char} (simple : Simple cs) : (wordOf cs).chars = cs := by
  have inner := simple.inner
  clear simple
  induction cs with
  | nil => rfl
  | cons c rest ih =>
      have first := inner c List.mem_cons_self
      have small : c.toNat < 0x80 := Nat.lt_of_le_of_lt first.2.1 (by decide)
      have code := Text.Utf8.toNat_ofNat (n := c.toNat) (by omega)
      have others := ih fun d hd => inner d (List.mem_cons_of_mem c hd)
      rw [wordOf, Word.chars] at others ⊢
      rw [Text.Utf8.encode, List.flatMap_cons, Text.Utf8.encodeChar, if_pos small,
        List.singleton_append, List.map_cons, code, Char.ofNat_toNat]
      exact congrArg (c :: ·) others

/-- **An integer is written by the word for it.** -/
theorem writes_integer (n : ℤ) : (wordOf (Decimal.integer n)).Writes n := by
  refine ⟨[], if n < 0 then ['-'] else [], Decimal.natural n.natAbs, [], ?_, nofun, nofun,
    Decimal.natural_ne_nil _, fun c hc => Decimal.isDigit_of_mem_natural hc, ?_⟩
  · rw [(simple_integer n).chars_wordOf, Decimal.integer]
    split <;> simp
  · rw [Decimal.valueOf_natural]
    by_cases negative : n < 0
    · exact .inl ⟨if_pos negative, by omega⟩
    · exact .inr ⟨.inl (if_neg negative), by omega⟩

theorem writes_integers (ns : List ℤ) :
    List.Forall₂ Word.Writes (ns.map fun n => wordOf (Decimal.integer n)) ns :=
  List.forall₂_map_left_iff.mpr (List.forall₂_same.mpr fun n _ => writes_integer n)

/-! ### Two columns -/

/-- The fields of a pair. -/
def pairFields (r : ℤ × ℤ) : List (List Char) := [Decimal.integer r.1, Decimal.integer r.2]

/-- Pairs of integers as a table with named columns. -/
def ofPairs (first second : String) (rows : List (ℤ × ℤ)) : List Char :=
  (Table.text
    (([first.toList, second.toList] :: rows.map pairFields).map (·.map Text.ofChars))).chars

variable {first second : String} (simple : Simple first.toList) (rows : List (ℤ × ℤ))

include simple in
theorem records_ofPairs : records (Text.Utf8.encode (ofPairs first second rows)) =
    ([wordOf first.toList, wordOf second.toList] :: rows.map fun r => (pairFields r).map wordOf,
      true) := by
  have led : ∀ row ∈ [first.toList, second.toList] :: rows.map pairFields, Led row :=
    List.forall_mem_cons.mpr
      ⟨simple.led _, List.forall_mem_map.mpr fun r _ => (simple_integer r.1).led _⟩
  rw [ofPairs, records_text led, List.map_cons, List.map_map]
  rfl

/-- Rows that are as long as the row of names stay as they are. -/
theorem aligned_even {width : ℕ} {rows : List (List Word)}
    (even : ∀ row ∈ rows, row.length = width) :
    aligned width rows = some rows ∧ widthOf width rows = width := by
  cases rows with
  | nil => exact ⟨rfl, rfl⟩
  | cons row rest =>
      have whole : ∀ r ∈ row :: rest, padded width r = r := by
        intro r hr
        rw [padded, even r hr, Nat.sub_self, List.replicate_zero, List.append_nil]
      have length := even row List.mem_cons_self
      have inside : rest.any (fun r => decide (width < r.length)) = false := by
        rw [List.any_eq_false]
        intro r hr
        simp [even r (List.mem_cons_of_mem row hr)]
      refine ⟨?_, length⟩
      rw [aligned, whole row List.mem_cons_self]
      simp only [length, inside, Bool.false_eq_true, if_false]
      rw [List.map_congr_left fun r hr => whole r (List.mem_cons_of_mem row hr), List.map_id']

theorem aligned_pairs (rows : List (ℤ × ℤ)) :
    aligned 2 (rows.map fun r => (pairFields r).map wordOf) =
      some (rows.map fun r => (pairFields r).map wordOf) ∧
      widthOf 2 (rows.map fun r => (pairFields r).map wordOf) = 2 :=
  aligned_even (List.forall_mem_map.mpr fun _ _ => rfl)

/-- The words of the first and of the second items of pairs. -/
def columnsOfPairs (rows : List (ℤ × ℤ)) : List Word × List Word :=
  (rows.map fun r => wordOf (Decimal.integer r.1), rows.map fun r => wordOf (Decimal.integer r.2))

theorem wordsAt_pairs (rows : List (ℤ × ℤ)) :
    (List.range 2).map (wordsAt ((rows.map fun r => (pairFields r).map wordOf).map List.toArray)) =
      [(columnsOfPairs rows).1, (columnsOfPairs rows).2] := by
  simp only [List.range_succ, List.range_zero, List.nil_append, List.singleton_append,
    List.map_cons, List.map_nil, wordsAt, List.map_map]
  rfl

include simple in
theorem words_ofPairs (other : first ≠ second) :
    words? (Text.Utf8.encode (ofPairs first second rows)) first = some (columnsOfPairs rows).1 ∧
      words? (Text.Utf8.encode (ofPairs first second rows)) second =
        some (columnsOfPairs rows).2 := by
  obtain ⟨aligned_eq, width_eq⟩ := aligned_pairs rows
  have named : namedWords [wordOf first.toList, wordOf second.toList]
      (rows.map fun r => (pairFields r).map wordOf) =
      [(wordOf first.toList, (columnsOfPairs rows).1),
        (wordOf second.toList, (columnsOfPairs rows).2)] := by
    simp only [namedWords, List.length_cons, List.length_nil, width_eq]
    rw [wordsAt_pairs]
    rfl
  have here : (Except.ok first.toList : Except Fault (List Char)).toOption = some first.toList :=
    rfl
  have there : (Except.ok second.toList : Except Fault (List Char)).toOption = some second.toList :=
    rfl
  have apart : ¬ first.toList = second.toList := fun same => other (String.toList_inj.mp same)
  simp only [words?, records_ofPairs simple, List.length_cons, List.length_nil, aligned_eq, bind,
    Option.bind, named]
  constructor
  · simp [text_wordOf, here]
  · simp [text_wordOf, here, there, apart]

/-- The words of pairs write their items. -/
theorem columnsOfPairs_write (rows : List (ℤ × ℤ)) :
    List.Forall₂ Word.Writes (columnsOfPairs rows).1 (rows.map (·.1)) ∧
      List.Forall₂ Word.Writes (columnsOfPairs rows).2 (rows.map (·.2)) := by
  have first := writes_integers (rows.map (·.1))
  have second := writes_integers (rows.map (·.2))
  rw [List.map_map] at first second
  exact ⟨first, second⟩

include simple in
/-- **Pairs of integers of 64 bits that were written as a table are read as two columns of
them.** -/
theorem ofOctets_ofPairs (bounds : ∀ r ∈ rows, IsWord r.1 ∧ IsWord r.2) :
    ofOctets (Text.Utf8.encode (ofPairs first second rows)) = .ok
      { columns := [(first.toList, (rows.map (·.1)).map .word),
          (second.toList, (rows.map (·.2)).map .word)]
        height := rows.length } := by
  obtain ⟨aligned_eq, width_eq⟩ := aligned_pairs rows
  have names : [wordOf first.toList, wordOf second.toList].mapM Word.text =
      .ok [first.toList, second.toList] :=
    mapM_ok_iff.mpr (.cons (text_wordOf _) (.cons (text_wordOf _) .nil))
  have columns : columnsOf 2 (rows.map fun r => (pairFields r).map wordOf) =
      .ok [(rows.map (·.1)).map .word, (rows.map (·.2)).map .word] := by
    obtain ⟨writes, writes'⟩ := columnsOfPairs_write rows
    have bound : ∀ n ∈ rows.map (·.1), IsWord n := List.forall_mem_map.mpr fun r hr =>
      (bounds r hr).1
    have bound' : ∀ n ∈ rows.map (·.2), IsWord n := List.forall_mem_map.mpr fun r hr =>
      (bounds r hr).2
    have made : List.Forall₂ (fun words cells => Column.ofWords words = .ok cells)
        [(columnsOfPairs rows).1, (columnsOfPairs rows).2]
        [(rows.map (·.1)).map .word, (rows.map (·.2)).map .word] :=
      .cons (Column.ofWords_integers writes bound)
        (.cons (Column.ofWords_integers writes' bound') .nil)
    rw [← wordsAt_pairs, List.forall₂_map_left_iff] at made
    exact mapM_ok_iff.mpr made
  simp only [ofOctets, records_ofPairs simple, ofRecords, names, bind, Except.bind, Bool.not_true,
    Bool.false_and, Bool.false_eq_true, if_false, List.length_cons, List.length_nil, aligned_eq,
    width_eq, columns, List.length_map]
  rfl

end Annealing.Table
