import Annealing.Proofs.Document.Json.Number
import Annealing.Proofs.Traversal
import Annealing.Table.Column

/-!
# Table — columns of integers

A word *writes* an integer (`Table.Word.Writes`) if it consists of digits with a sign in front or
without one, and of blanks around them at most.  Such a word is read as this integer if it lies
between the bounds (`Table.Literal.integer_of_writes`), and stands for no missing cell.

So a column of words that write integers of 64 bits has these integers as its cells
(`Table.Column.ofWords_integers`).  Whatever the words of a column are, it has a cell for every one
of them (`Table.Column.ofWords_fit`), and no member that is read from it has more than 64 bits
(`Table.Column.isWord_of_member`).
-/

namespace Annealing.Table

/-! ### Words that write integers -/

/-- A word that writes an integer. -/
def Word.Writes (w : Word) (n : ℤ) : Prop :=
  ∃ before sign digits behind : List Char, w.chars = before ++ (sign ++ (digits ++ behind)) ∧
    (∀ c ∈ before, Text.isAsciiBlank c = true) ∧ (∀ c ∈ behind, Text.isAsciiBlank c = true) ∧
    digits ≠ [] ∧ (∀ c ∈ digits, c.isDigit = true) ∧
    (sign = ['-'] ∧ n = -(Numeral.valueOf digits : ℤ) ∨ (sign = [] ∨ sign = ['+']) ∧
      n = Numeral.valueOf digits)

/-- No blank is a digit or a sign. -/
theorem blank_cases {c : Char} (h : Text.isAsciiBlank c = true) :
    c.isDigit = false ∧ c ≠ '-' ∧ c ≠ '+' := by
  have code : c.toNat = 0x20 ∨ 0x9 ≤ c.toNat ∧ c.toNat ≤ 0xD := by
    simpa [Text.isAsciiBlank] using h
  refine ⟨?_, ?_, ?_⟩
  · rw [Bool.eq_false_iff]
    intro digit
    simp only [Char.isDigit, Bool.and_eq_true, decide_eq_true_eq] at digit
    have low : 48 ≤ c.toNat := digit.1
    omega
  · rintro rfl
    exact absurd code (by decide)
  · rintro rfl
    exact absurd code (by decide)

/-- A digit is neither a blank nor a sign. -/
theorem digit_cases {c : Char} (h : c.isDigit = true) :
    Text.isAsciiBlank c = false ∧ c ≠ '-' ∧ c ≠ '+' := by
  refine ⟨?_, ?_, ?_⟩
  · rw [Bool.eq_false_iff]
    intro blank
    rw [(blank_cases blank).1] at h
    cases h
  · rintro rfl
    exact absurd h (by decide)
  · rintro rfl
    exact absurd h (by decide)

/-- **A word that writes an integer between the bounds is read as this integer.** -/
theorem Literal.integer_of_writes {w : Word} {n least greatest : ℤ} (writes : w.Writes n)
    (low : least ≤ n) (high : n ≤ greatest) : Literal.integer least greatest w = .integer n := by
  obtain ⟨before, sign, digits, behind, chars, blank, blank', nonempty, all, value⟩ := writes
  obtain ⟨d, more, rfl⟩ := List.exists_cons_of_ne_nil nonempty
  have digit := digit_cases (all d List.mem_cons_self)
  have ends : Json.EndsDigits behind := fun c hc =>
    (blank_cases (blank' c (List.mem_of_mem_head? hc))).1
  have body : Numeral.splitSign (w.chars.dropWhile Text.isAsciiBlank) =
      (decide (sign = ['-']), (d :: more) ++ behind) := by
    rw [chars, List.dropWhile_append_of_pos blank]
    rcases value with ⟨rfl, -⟩ | ⟨rfl | rfl, -⟩
    · rfl
    · rw [List.nil_append, List.cons_append, List.dropWhile_cons_of_neg (by simp [digit.1]),
        Numeral.splitSign]
      · rfl
      · exact fun _ same => digit.2.1 (List.cons.inj same).1
      · exact fun _ same => digit.2.2 (List.cons.inj same).1
    · rfl
  have number : (if decide (sign = ['-']) = true then -(Numeral.valueOf (d :: more) : ℤ)
    else Numeral.valueOf (d :: more)) = n := by
    rcases value with ⟨rfl, rfl⟩ | ⟨rfl | rfl, rfl⟩ <;> rfl
  have inside : ¬ (n < least ∨ greatest < n) := by omega
  have closed : behind.all Text.isAsciiBlank = true := List.all_eq_true.mpr blank'
  simp only [Literal.integer, body, Json.takeWhile_digits all ends, Json.dropWhile_digits all ends,
    number, if_neg inside, closed, if_true, List.isEmpty_cons, Bool.false_eq_true, if_false]

/-- A word writes one integer at most. -/
theorem Word.Writes.unique {w : Word} {m n : ℤ} (writes : w.Writes m) (writes' : w.Writes n) :
    m = n := by
  have read := Literal.integer_of_writes writes (min_le_left m n) (le_max_left m n)
  have read' := Literal.integer_of_writes writes' (min_le_right m n) (le_max_right m n)
  exact Literal.Reading.integer.inj (read.symm.trans read')

/-- The characters that an integer is written with. -/
theorem Word.Writes.mark {w : Word} {n : ℤ} (writes : w.Writes n) {c : Char} (hc : c ∈ w.chars) :
    Text.isAsciiBlank c = true ∨ c.isDigit = true ∨ c = '-' ∨ c = '+' := by
  obtain ⟨before, sign, digits, behind, chars, blank, blank', -, all, value⟩ := writes
  rw [chars, List.mem_append, List.mem_append, List.mem_append] at hc
  rcases hc with hc | hc | hc | hc
  · exact .inl (blank c hc)
  · rcases value with ⟨rfl, -⟩ | ⟨rfl | rfl, -⟩
    · exact .inr (.inr (.inl (List.mem_singleton.mp hc)))
    · cases hc
    · exact .inr (.inr (.inr (List.mem_singleton.mp hc)))
  · exact .inr (.inl (all c hc))
  · exact .inl (blank' c hc)

/-- A word that writes an integer is not empty. -/
theorem Word.Writes.ne_nil {w : Word} {n : ℤ} (writes : w.Writes n) : w.chars ≠ [] := by
  obtain ⟨before, sign, digits, behind, chars, -, -, nonempty, -⟩ := writes
  rw [chars]
  simp [nonempty]

/-- A word that writes an integer stands for no missing cell. -/
theorem Word.Writes.present {w : Word} {n : ℤ} (writes : w.Writes n) : w.isMissing = false := by
  -- every word for a missing cell is empty or has a character that no integer is written with
  have foreign : missingWords.all (fun cs => cs.isEmpty ||
      cs.any fun c =>
        !Text.isAsciiBlank c && !c.isDigit && c != '-' && c != '+') = true := by decide +kernel
  rw [Bool.eq_false_iff, ne_eq, isMissing, List.contains_iff_mem]
  intro missing
  have this := List.all_eq_true.mp foreign _ missing
  simp only [Bool.or_eq_true, List.isEmpty_iff, List.any_eq_true, Bool.and_eq_true,
    Bool.not_eq_true', bne_iff_ne] at this
  rcases this with empty | ⟨c, hc, ⟨⟨noBlank, noDigit⟩, noMinus⟩, noPlus⟩
  · exact writes.ne_nil empty
  · rcases writes.mark hc with blank | digit | minus | plus
    · rw [blank] at noBlank
      cases noBlank
    · rw [digit] at noDigit
      cases noDigit
    · exact noMinus minus
    · exact noPlus plus

/-! ### Columns -/

/-- An integer of 64 bits. -/
def IsWord (n : ℤ) : Prop := leastWord ≤ n ∧ n ≤ greatestWord

instance (n : ℤ) : Decidable (IsWord n) := inferInstanceAs (Decidable (_ ∧ _))

namespace Column

/-- Words that write integers between the bounds are read one after another. -/
theorem integersFrom_writes {least greatest : ℤ} {words : List Word} {ns : List ℤ}
    (writes : List.Forall₂ Word.Writes words ns) (bounds : ∀ n ∈ ns, least ≤ n ∧ n ≤ greatest) :
    ∀ before, integersFrom least greatest before words = .cells (before.reverse ++ ns) := by
  induction writes with
  | nil => simp [integersFrom]
  | @cons w n words ns first _ ih =>
      intro before
      obtain ⟨low, high⟩ := bounds n List.mem_cons_self
      rw [integersFrom, Literal.integer_of_writes first low high]
      simp only [ih (fun m hm => bounds m (List.mem_cons_of_mem n hm)), List.reverse_cons,
        List.append_assoc, List.singleton_append]

/-- **Words that write integers of 64 bits are a column of these integers.** -/
theorem ofWords_integers {words : List Word} {ns : List ℤ}
    (writes : List.Forall₂ Word.Writes words ns) (bounds : ∀ n ∈ ns, IsWord n) :
    ofWords words = .ok (ns.map .word) := by
  have present : words.filter (fun w => !w.isMissing) = words := by
    rw [List.filter_eq_self]
    intro w hw
    clear bounds
    induction writes with
    | nil => cases hw
    | cons first _ ih =>
        rcases List.mem_cons.mp hw with rfl | hw
        · rw [first.present]
          rfl
        · exact ih hw
  have read := integersFrom_writes writes bounds []
  simp only [ofWords, present, integers, read, List.reverse_nil, List.nil_append, Nat.lt_irrefl,
    if_false]

end Column

/-! ### Columns of any words -/

/-- A cell of integers with a sign holds one of 64 bits. -/
def Cell.Fits : Cell → Prop
  | .word n => IsWord n
  | _ => True

theorem Literal.integer_bounds {w : Word} {n least greatest : ℤ}
    (h : Literal.integer least greatest w = .integer n) :
    least ≤ n ∧ n ≤ greatest := by
  unfold Literal.integer at h
  simp only at h
  split_ifs at h <;> cases h <;> omega

/-- A word that is too large between the one bounds is an integer outside them between others. -/
theorem Literal.outside_of_tooLarge {w : Word} {n least greatest least' greatest' : ℤ}
    (h : Literal.integer least greatest w = .integer n)
    (large : Literal.integer least' greatest' w = .tooLarge) :
    n < least' ∨ greatest' < n := by
  unfold Literal.integer at h large
  simp only at h large
  split_ifs at h large <;> cases h <;> assumption

namespace Column

variable {words : List Word} {cells : List Cell}

/-- Integers that are read are those of the words, one after another. -/
theorem integersFrom_cells {least greatest : ℤ} {ns : List ℤ} : ∀ {before : List ℤ},
    integersFrom least greatest before words = .cells ns →
      ∃ read, ns = before.reverse ++ read ∧
        List.Forall₂ (fun w n => Literal.integer least greatest w = .integer n) words read := by
  induction words with
  | nil =>
      intro before h
      cases h
      exact ⟨[], (List.append_nil _).symm, .nil⟩
  | cons w rest ih =>
      intro before h
      rw [integersFrom] at h
      split at h
      · cases h
      · cases h
      · next n first =>
          obtain ⟨read, rfl, others⟩ := ih h
          exact ⟨n :: read, by rw [List.reverse_cons, List.append_assoc,
            List.singleton_append], .cons first others⟩

theorem integers_cells {least greatest : ℤ} {ns : List ℤ}
    (h : integers least greatest words = .cells ns) :
    List.Forall₂ (fun w n => Literal.integer least greatest w = .integer n) words ns := by
  obtain ⟨read, rfl, all⟩ := integersFrom_cells h
  exact all

/-- Where an integer is too large, one of the words is. -/
theorem integersFrom_tooLarge {least greatest : ℤ} : ∀ {before : List ℤ},
    integersFrom least greatest before words = .tooLarge →
    ∃ w ∈ words, Literal.integer least greatest w = .tooLarge := by
  induction words with
  | nil => exact fun h => by cases h
  | cons w rest ih =>
      intro before h
      rw [integersFrom] at h
      split at h
      · cases h
      · next large => exact ⟨w, List.mem_cons_self, large⟩
      · obtain ⟨v, hv, large⟩ := ih h
        exact ⟨v, List.mem_cons_of_mem w hv, large⟩

/-- A column has a cell for every word, and its integers with a sign have 64 bits. -/
structure Fits (words : List Word) (cells : List Cell) : Prop where
  length : cells.length = words.length
  fits : ∀ c ∈ cells, c.Fits

/-- Cells that are read one by one fit if each of them does. -/
theorem Fits.of_forall₂ {R : Word → Cell → Prop} (each : ∀ w c, R w c → c.Fits)
    (h : List.Forall₂ R words cells) :
    Fits words cells where
  length := h.length_eq.symm
  fits c hc := by
    obtain ⟨w, -, related⟩ := exists_of_forall₂ h hc
    exact each w c related

theorem cells?_fit {missing : Cell} {read : Word → Option Cell} (absent : missing.Fits)
    (present : ∀ w c, read w = some c → c.Fits) (h : cells? missing read words = some cells) :
    Fits words cells := by
  refine .of_forall₂ (fun w c cell => ?_) (mapM_some_iff.mp h)
  split at cell
  · cases cell
    exact absent
  · exact present w c cell

theorem textCell_fit {w : Word} {c : Cell} (h : textCell w = .ok c) : c.Fits := by
  obtain ⟨text, -, h⟩ := except_bind_ok_iff.mp h
  cases h
  trivial

theorem texts_fit (h : texts words = .ok cells) : Fits words cells := by
  have all : List.Forall₂ (fun w c => textCell w = .ok c) words cells := mapM_ok_iff.mp h
  exact .of_forall₂ (fun _ _ cell => textCell_fit cell) all

theorem anyIntegers_fit (h : anyIntegers words = .ok cells) : Fits words cells := by
  unfold anyIntegers at h
  split at h
  · next found =>
      cases h
      have absent : (Cell.value .null).Fits := trivial
      refine cells?_fit absent (fun w c read => ?_) found
      obtain ⟨n, -, rfl⟩ := Option.map_eq_some_iff.mp read
      trivial
  · exact texts_fit h

theorem others_fit (h : others words = .ok cells) : Fits words cells := by
  unfold others at h
  split at h
  · next found =>
      cases h
      cases numbers : doubles? words with
      | some all =>
          rw [numbers] at found
          cases found
          have absent : (Cell.double (0 / 0)).Fits := trivial
          refine cells?_fit absent (fun w c read => ?_) numbers
          obtain ⟨x, -, rfl⟩ := Option.map_eq_some_iff.mp read
          trivial
      | none =>
          rw [numbers] at found
          have absent : (Cell.value .null).Fits := trivial
          refine cells?_fit absent (fun w c read => ?_) found
          obtain ⟨b, -, rfl⟩ := Option.map_eq_some_iff.mp read
          trivial
  · refine .of_forall₂ (fun w c cell => ?_) (mapM_ok_iff.mp h)
    split at cell
    · cases cell
      trivial
    · exact textCell_fit cell

theorem largeIntegers_fit
    (large : ∃ w ∈ words.filter fun w => !w.isMissing,
      Literal.integer leastWord greatestWord w = .tooLarge)
    (h : largeIntegers words = .ok cells) : Fits words cells := by
  unfold largeIntegers at h
  simp only at h
  split at h
  · exact others_fit h
  · exact anyIntegers_fit h
  · next ns read =>
      split at h
      · exact texts_fit h
      · next mixed =>
          split at h
          · exact anyIntegers_fit h
          · next signed =>
              cases h
              have unsigned : ((words.filter fun w => !w.isMissing).filter fun w => !isNegative w) =
                  words.filter fun w => !w.isMissing := by
                rw [List.filter_eq_self]
                simpa using signed
              rw [unsigned] at read
              have all := integers_cells read
              -- the word that is too large with a sign is an integer without one, so no cell may be
              -- missing
              obtain ⟨w, hw, outside⟩ := large
              obtain ⟨n, hn, number⟩ := exists_of_forall₂ all.flip hw
              have whole : ns.any (greatestWord < ·) = true := by
                have beyond := Literal.outside_of_tooLarge number outside
                have low := (Literal.integer_bounds number).1
                refine List.any_eq_true.mpr ⟨n, hn, decide_eq_true ?_⟩
                simp only [leastWord] at beyond
                omega
              have present : ¬ (words.filter fun w => !w.isMissing).length < words.length := by
                intro missing
                simp [whole, missing] at mixed
              have kept := List.length_filter_le (fun w => !w.isMissing) words
              refine ⟨?_, fun c hc => ?_⟩
              · rw [List.length_map, ← all.length_eq]
                omega
              · obtain ⟨n, -, rfl⟩ := List.mem_map.mp hc
                trivial

/-- **A column has a cell for every word**, whatever type it is of. -/
theorem ofWords_fit (h : ofWords words = .ok cells) : Fits words cells := by
  unfold ofWords at h
  simp only at h
  split at h
  · exact others_fit h
  · next read => exact largeIntegers_fit (integersFrom_tooLarge read) h
  · next ns read =>
      cases h
      have all := integers_cells read
      have kept := List.length_filter_le (fun w => !w.isMissing) words
      split
      · refine ⟨List.length_map doubleOfWord, fun c hc => ?_⟩
        obtain ⟨w, -, rfl⟩ := List.mem_map.mp hc
        unfold doubleOfWord
        split <;> trivial
      · refine ⟨?_, fun c hc => ?_⟩
        · rw [List.length_map, ← all.length_eq]
          omega
        · obtain ⟨n, hn, rfl⟩ := List.mem_map.mp hc
          obtain ⟨w, -, number⟩ := exists_of_forall₂ all hn
          exact Literal.integer_bounds number

end Column

/-! ### Members -/

theorem Cell.isWord_cutOff (x : Float) : IsWord (cutOff x) := by
  unfold cutOff
  split
  · split
    · assumption
    · exact ⟨Int.le_refl _, by decide⟩
  · exact ⟨Int.le_refl _, by decide⟩

theorem Cell.isWord_wrapped (n : ℕ) : IsWord (wrapped n) := by
  have some : 0 < 2 ^ 64 := by decide
  have low : -((2 ^ 64 : ℕ) : ℤ) / 2 ≤ wrapped n := Int.le_bmod some
  have high : wrapped n < (((2 ^ 64 : ℕ) : ℤ) + 1) / 2 := Int.bmod_lt some
  simp only [IsWord, leastWord, greatestWord]
  omega

/-- A member that is read from a cell has 64 bits. -/
theorem Cell.Fits.isWord_member {c : Cell} (fits : c.Fits) {n : ℤ} (h : c.member = .ok n) :
    IsWord n := by
  cases c with
  | word m =>
      cases h
      exact fits
  | natural m =>
      rw [member, Except.ok.injEq] at h
      rw [← h]
      exact isWord_wrapped m
  | double x =>
      simp only [member] at h
      split at h
      · cases h
        exact isWord_cutOff x
      · cases h
  | value v =>
      have word : v.toWord = .ok n := by
        cases v <;> first | exact h | cases h
      obtain ⟨m, -, word⟩ := except_bind_ok_iff.mp word
      split at word
      · next inside =>
          cases word
          simp only [IsWord, leastWord, greatestWord]
          omega
      · cases word

/-- **No member that is read from a column has more than 64 bits.** -/
theorem Column.isWord_of_member {words : List Word} {cells : List Cell}
    (h : ofWords words = .ok cells) {c : Cell} (hc : c ∈ cells) {n : ℤ} (read : c.member = .ok n) :
    IsWord n :=
  ((ofWords_fit h).fits c hc).isWord_member read

end Annealing.Table
