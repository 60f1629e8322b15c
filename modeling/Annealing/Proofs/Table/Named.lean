import Annealing.Proofs.Table.Integers
import Annealing.Table.Basic

/-!
# Table — the words of a column

`Table.words?` are the words of the column of a name in the octets of a table, before it is known
what they mean.  The cells of that column are the ones that are made of these words, one for every
row (`Table.cells_of_words`), whatever other columns the table has.
-/

namespace Annealing.Table

/-- The words of the columns of rows under a row of names, each with its name. -/
def namedWords (names : List Word) (rows : List (List Word)) : List (Word × List Word) :=
  let width := widthOf names.length rows
  names.zip (((List.range width).map (wordsAt (rows.map List.toArray))).drop (width - names.length))

/-- The words of the first column of a name. -/
def words? (octets : List UInt8) (name : String) : Option (List Word) :=
  match records octets with
  | ([], _) => none
  | (names :: rows, _) => do
      let rows ← aligned names.length rows
      ((namedWords names rows).find? fun c => c.1.text.toOption == some name.toList).map (·.2)

/-- How a table is made of the octets that hold it. -/
theorem ofOctets_ok {octets : List UInt8} {t : Table} (h : ofOctets octets = .ok t) :
    ∃ names rows full texts columns, records octets = (names :: rows, true) ∧
      names.mapM Word.text = .ok texts ∧
      aligned names.length rows = some full ∧
      columnsOf (widthOf names.length full) full = .ok columns ∧
      t = { columns := texts.zip (columns.drop (widthOf names.length full - names.length)),
            height := full.length } := by
  unfold ofOctets at h
  split at h
  · next names rows closed records_eq =>
      unfold ofRecords at h
      cases closed with
      | false =>
          -- a file that ends inside quotes holds no table
          cases rows with
          | nil => cases h
          | cons row rows =>
              obtain ⟨_, -, h⟩ := except_bind_ok_iff.mp h
              cases h
      | true =>
          obtain ⟨texts, read, h⟩ := except_bind_ok_iff.mp h
          have length : texts.length = names.length := (mapM_ok_iff.mp read).length_eq.symm
          simp only [Bool.not_true, Bool.false_eq_true, if_false, length] at h
          split at h
          · cases h
          · next full aligned_eq =>
              obtain ⟨columns, columns_eq, h⟩ := except_bind_ok_iff.mp h
              cases h
              exact ⟨names, rows, full, texts, columns, records_eq, read, aligned_eq,
                columns_eq, rfl⟩
  · cases h

/-- Words and cells under the same name. -/
def Corresponds (height : ℕ) (c : Word × List Word) (d : List Char × List Cell) : Prop :=
  c.1.text = .ok d.1 ∧ Column.ofWords c.2 = .ok d.2 ∧ c.2.length = height

/-- Every column of a table is made of words of its octets. -/
theorem columns_of_words {octets : List UInt8} {t : Table} (read : ofOctets octets = .ok t) :
    ∃ named, (∀ name : String, words? octets name =
      (named.find? fun c => c.1.text.toOption == some name.toList).map (·.2)) ∧
      List.Forall₂ (Corresponds t.height) named t.columns := by
  obtain ⟨names, rows, full, texts, columns, records_eq, names_eq, aligned_eq, columns_eq, rfl⟩ :=
    ofOctets_ok read
  refine ⟨namedWords names full, fun name => ?_, ?_⟩
  · simp only [words?, records_eq, aligned_eq, bind, Option.bind]
  · have columns' : List.Forall₂ (fun words cells => Column.ofWords words = .ok cells ∧
      words.length = full.length)
        ((List.range (widthOf names.length full)).map (wordsAt (full.map List.toArray))) columns :=
        by
      rw [List.forall₂_map_left_iff]
      refine (mapM_ok_iff.mp columns_eq).imp fun place cells made => ⟨made, ?_⟩
      rw [wordsAt, List.length_map, List.length_map]
    exact forall₂_zip_zip (mapM_ok_iff.mp names_eq)
      (List.forall₂_drop (widthOf names.length full - names.length) columns')

theorem Corresponds.alike {height : ℕ} {c : Word × List Word} {d : List Char × List Cell}
    (h : Corresponds height c d) (name : String) :
    (c.1.text.toOption == some name.toList) = (d.1 == name.toList) := by
  rw [h.1]
  rfl

/-- **The cells of a column are made of its words**, one for every row. -/
theorem cells_of_words {octets : List UInt8} {t : Table} (read : ofOctets octets = .ok t)
    {name : String} {words : List Word} (column : words? octets name = some words) :
    ∃ cells, t.cells? name = some cells ∧ Column.ofWords words = .ok cells ∧
      words.length = t.height := by
  obtain ⟨named, words_eq, all⟩ := columns_of_words read
  rw [words_eq] at column
  obtain ⟨c, found, rfl⟩ := Option.map_eq_some_iff.mp column
  obtain ⟨d, found', -, made, length⟩ := find?_of_forall₂ (fun _ _ h => h.alike name) all found
  refine ⟨d.2, ?_, made, length⟩
  rw [cells?, found']
  rfl

end Annealing.Table
