import Annealing.Proofs.Number.Monotone
import Annealing.Proofs.Table.Integers

/-!
# Table — columns of scores

What the words of a column are read as depends on all of them, and in general on their order, too: a
word that writes an integer beyond 64 bits (`Table.Word.IsLarge`) makes a column of texts of some
words and a column of doubles of the same words in another order, and in a column of texts no word
stands for a missing cell.

In a column without such words (`Table.Column.IsPlain`) every word is read by itself, in a way that
only depends on which words there are (`Table.Column.readIn`).

* `Table.Column.scores`: the scores of the words of a column.
* `Table.Column.scores_eq`: those of a plain column, word by word.
* `Table.Column.readIn_missing`, `Table.Column.readIn_number`: a missing score is zero, and one that
  is a number is this number.
* `Table.Column.readIn_perm`: the order of the words does not matter.
-/

namespace Annealing.Table

/-- A word that writes an integer beyond 64 bits. -/
def Word.IsLarge (w : Word) : Prop := ∃ n, w.Writes n ∧ ¬ IsWord n

/-- The number that a word writes as a decimal, or the infinity that it names. -/
def number? (w : Word) : Option Float := Literal.double w <|> Literal.infinity? w

/-- The integer of 64 bits that a word writes. -/
def integer? (w : Word) : Option ℤ :=
  match Literal.integer leastWord greatestWord w with
  | .integer n => some n
  | _ => none

/-- The score of a word: zero if it stands for a missing cell, otherwise the double nearest to what
it writes. -/
def Word.Scores (w : Word) (x : Float) : Prop :=
  w.isMissing = true ∧ x = 0 ∨
    w.isMissing = false ∧ ((∃ n, w.Writes n ∧ x = Binary64.ofInt n) ∨ number? w = some x)

/-! ### Words that are read as integers -/

/-- A text is its sign and what stands behind it. -/
theorem splitSign_spec (cs : List Char) :
    ∃ sign : List Char, cs = sign ++ (Numeral.splitSign cs).2 ∧
    (sign = ['-'] ∧ (Numeral.splitSign cs).1 = true ∨
      (sign = [] ∨ sign = ['+']) ∧ (Numeral.splitSign cs).1 = false) := by
  unfold Numeral.splitSign
  split
  · exact ⟨['-'], rfl, .inl ⟨rfl, rfl⟩⟩
  · exact ⟨['+'], rfl, .inr ⟨.inr rfl, rfl⟩⟩
  · exact ⟨[], rfl, .inr ⟨.inl rfl, rfl⟩⟩

/-- **A word that is read as an integer, or as one that is too large, writes one.** -/
theorem Literal.writes_of_reading {w : Word} {least greatest : ℤ}
    (some : Literal.integer least greatest w ≠ .none) :
    ∃ n, w.Writes n ∧ (Literal.integer least greatest w = .integer n ∨
      Literal.integer least greatest w = .tooLarge ∧ (n < least ∨ greatest < n)) := by
  obtain ⟨sign, chars, signed⟩ := splitSign_spec (w.chars.dropWhile Text.isAsciiBlank)
  unfold Literal.integer at some ⊢
  generalize Numeral.splitSign (w.chars.dropWhile Text.isAsciiBlank) = split at some chars signed ⊢
  obtain ⟨negative, body⟩ := split
  simp only at some chars signed ⊢
  have whole : w.chars = w.chars.takeWhile Text.isAsciiBlank ++
      (sign ++ (body.takeWhile Char.isDigit ++ body.dropWhile Char.isDigit)) := by
    rw [List.takeWhile_append_dropWhile, ← chars, List.takeWhile_append_dropWhile]
  generalize number : (if negative = true then -(Numeral.valueOf (body.takeWhile Char.isDigit) : ℤ)
    else Numeral.valueOf (body.takeWhile Char.isDigit)) = n at some ⊢
  have value : sign = ['-'] ∧ n = -(Numeral.valueOf (body.takeWhile Char.isDigit) : ℤ) ∨
      (sign = [] ∨ sign = ['+']) ∧ n = Numeral.valueOf (body.takeWhile Char.isDigit) := by
    rcases signed with ⟨minus, rfl⟩ | ⟨plus, rfl⟩
    · exact .inl ⟨minus, number.symm⟩
    · exact .inr ⟨plus, number.symm⟩
  have written (behind : ∀ c ∈ body.dropWhile Char.isDigit, Text.isAsciiBlank c = true)
      (nonempty : body.takeWhile Char.isDigit ≠ []) : w.Writes n :=
    ⟨_, sign, _, _, whole, fun c hc => List.mem_takeWhile_imp hc, behind, nonempty,
      fun c hc => List.mem_takeWhile_imp hc, value⟩
  split_ifs at some ⊢ with empty outside ends closed
  · exact absurd rfl some
  · have nothing : body.dropWhile Char.isDigit = [] := List.isEmpty_iff.mp ends
    refine ⟨n, written ?_ (mt List.isEmpty_iff.mpr empty), .inr ⟨rfl, outside⟩⟩
    rw [nothing]
    exact nofun
  · exact absurd rfl some
  · exact ⟨n, written (List.all_eq_true.mp closed) (mt List.isEmpty_iff.mpr empty), .inl rfl⟩
  · exact absurd rfl some

theorem writes_of_integer? {w : Word} {n : ℤ} (read : integer? w = some n) : w.Writes n := by
  unfold integer? at read
  split at read
  · next m reading =>
    cases read
    have some : Literal.integer leastWord greatestWord w ≠ .none := by simp [reading]
    obtain ⟨n, writes, same | ⟨large, -⟩⟩ := Literal.writes_of_reading some
    · rw [reading] at same
      cases same
      exact writes
    · rw [reading] at large
      cases large
  · cases read

/-- A word that is too large for 64 bits is large. -/
theorem isLarge_of_tooLarge {w : Word}
    (large : Literal.integer leastWord greatestWord w = .tooLarge) :
    w.IsLarge := by
  have some : Literal.integer leastWord greatestWord w ≠ .none := by simp [large]
  obtain ⟨n, writes, same | ⟨-, outside⟩⟩ := Literal.writes_of_reading some
  · rw [large] at same
    cases same
  · exact ⟨n, writes, fun ⟨low, high⟩ => outside.elim low.not_gt high.not_gt⟩

theorem not_isLarge_of_integer? {w : Word} {n : ℤ} (read : integer? w = some n) : ¬ w.IsLarge := by
  rintro ⟨m, writes, outside⟩
  refine outside (writes.unique (writes_of_integer? read) ▸ ?_)
  unfold integer? at read
  split at read
  · next reading =>
    cases read
    exact Literal.integer_bounds reading
  · cases read

/-- A word with a character that no integer is written with is not large. -/
theorem not_isLarge_of_mem {w : Word} {c : Char} (hc : c ∈ w.chars)
    (foreign : ¬ (Text.isAsciiBlank c = true ∨ c.isDigit = true ∨ c = '-' ∨ c = '+')) :
    ¬ w.IsLarge :=
  fun ⟨_, writes, _⟩ => foreign (writes.mark hc)

theorem not_isLarge_of_missing {w : Word} (missing : w.isMissing = true) : ¬ w.IsLarge := by
  rintro ⟨n, writes, -⟩
  rw [writes.present] at missing
  cases missing

/-! ### Plain columns -/

namespace Column

/-- The scores that the words of a column stand for. -/
def scores (words : List Word) : Except Fault (List Float) := do
  (← ofWords words).mapM Cell.score

/-- Words none of which writes an integer beyond 64 bits. -/
def IsPlain (words : List Word) : Prop := ∀ w ∈ words, ¬ w.IsLarge

/-- How a word of a plain column is read: as an integer if all present words are, as a decimal if
all are, as a truth value if all are, and as a text otherwise. -/
def readIn (words : List Word) (w : Word) : Except Fault Float :=
  if w.isMissing then .ok 0
  else if words.all fun v => v.isMissing || (integer? v).isSome then
    .ok (Binary64.ofInt ((integer? w).getD 0))
  else if words.all fun v => v.isMissing || (number? v).isSome then .ok ((number? w).getD 0)
  else if words.all fun v => v.isMissing || v.truth?.isSome then
    (Cell.value (.bool (w.truth?.getD false))).score
  else do (← textCell w).score

/-- A missing score is zero. -/
theorem readIn_missing {words : List Word} {w : Word} (missing : w.isMissing = true) :
    readIn words w = .ok 0 := if_pos missing

section

variable {words : List Word} {w : Word} (present : w.isMissing = false)

include present

theorem readIn_integer (all : (words.all fun v => v.isMissing || (integer? v).isSome) = true)
    {n : ℤ} (number : integer? w = some n) : readIn words w = .ok (Binary64.ofInt n) := by
  rw [readIn, present, if_neg Bool.false_ne_true, if_pos all, number]
  rfl

variable (fraction : ¬ (words.all fun v => v.isMissing || (integer? v).isSome) = true)

include fraction

theorem readIn_decimal (all : (words.all fun v => v.isMissing || (number? v).isSome) = true)
    {x : Float} (number : number? w = some x) : readIn words w = .ok x := by
  rw [readIn, present, if_neg Bool.false_ne_true, if_neg fraction, if_pos all, number]
  rfl

variable (word : ¬ (words.all fun v => v.isMissing || (number? v).isSome) = true)

include word

theorem readIn_truth (all : (words.all fun v => v.isMissing || v.truth?.isSome) = true)
    {b : Bool} (truth : w.truth? = some b) : readIn words w = (Cell.value (.bool b)).score := by
  rw [readIn, present, if_neg Bool.false_ne_true, if_neg fraction, if_neg word, if_pos all, truth]
  rfl

theorem readIn_text (text : ¬ (words.all fun v => v.isMissing || v.truth?.isSome) = true)
    {c : Cell} (cell : textCell w = .ok c) : readIn words w = c.score := by
  rw [readIn, present, if_neg Bool.false_ne_true, if_neg fraction, if_neg word, if_neg text, cell]
  rfl

end

/-- **The order of the words of a column does not matter.** -/
theorem readIn_perm {words words' : List Word} (same : words.Perm words') :
    readIn words = readIn words' := by
  funext w
  simp only [readIn, same.all_eq]

/-- **In a column of numbers every present score is the number that is written.** -/
theorem readIn_number {words : List Word}
    (numbers : ∀ w ∈ words, w.isMissing = true ∨ (number? w).isSome = true) {w : Word}
    (hw : w ∈ words) :
    ∃ x, readIn words w = .ok x ∧ w.Scores x := by
  cases missing : w.isMissing with
  | true => exact ⟨0, readIn_missing missing, .inl ⟨missing, rfl⟩⟩
  | false =>
      by_cases integral : (words.all fun v => v.isMissing || (integer? v).isSome) = true
      · have this := List.all_eq_true.mp integral w hw
        rw [missing, Bool.false_or] at this
        obtain ⟨n, read⟩ := Option.isSome_iff_exists.mp this
        exact ⟨_, readIn_integer missing integral read,
          .inr ⟨missing, .inl ⟨n, writes_of_integer? read, rfl⟩⟩⟩
      · have all : (words.all fun v => v.isMissing || (number? v).isSome) = true :=
          List.all_eq_true.mpr fun v hv => Bool.or_eq_true_iff.mpr (numbers v hv)
        have this := (numbers w hw).resolve_left (missing ▸ Bool.false_ne_true)
        obtain ⟨x, read⟩ := Option.isSome_iff_exists.mp this
        exact ⟨_, readIn_decimal missing integral all read, .inr ⟨missing, .inr read⟩⟩

/-! ### The cells of a plain column -/

variable {words : List Word} {cells : List Cell}

theorem integersFrom_none {least greatest : ℤ} : ∀ {before : List ℤ},
    integersFrom least greatest before words = .none →
      ∃ w ∈ words, Literal.integer least greatest w = .none := by
  induction words with
  | nil => exact fun h => by cases h
  | cons w rest ih =>
      intro before h
      rw [integersFrom] at h
      split at h
      · next none => exact ⟨w, List.mem_cons_self, none⟩
      · cases h
      · obtain ⟨v, hv, none⟩ := ih h
        exact ⟨v, List.mem_cons_of_mem w hv, none⟩

/-- Cells that are read one by one are there if every present word is read. -/
theorem isSome_cells? (missing : Cell) (read : Word → Option Cell) (words : List Word) :
    (cells? missing read words).isSome = words.all fun w => w.isMissing || (read w).isSome := by
  induction words with
  | nil => rfl
  | cons w rest ih =>
      rw [cells?] at ih ⊢
      rw [List.mapM_cons, List.all_cons, ← ih]
      cases w.isMissing
      · cases read w
        · rfl
        · cases rest.mapM fun w => if w.isMissing = true then some missing else read w <;> rfl
      · cases rest.mapM fun w => if w.isMissing = true then some missing else read w <;> rfl

theorem score_double {x : Float} (number : x.isNaN = false) : (Cell.double x).score = .ok x := by
  rw [Cell.score, number, if_neg Bool.false_ne_true]

theorem number_of_number? {w : Word} {x : Float} (read : number? w = some x) : x.isNaN = false := by
  unfold number? at read
  cases decimal : Literal.double w with
  | some y =>
      rw [decimal] at read
      cases read
      simp only [Literal.double, bind, Option.bind_eq_some_iff] at decimal
      obtain ⟨_, -, made⟩ := decimal
      cases made
      exact Binary64.number_ofDecimal _ _ _
  | none =>
      rw [decimal] at read
      change Literal.infinity? w = some x at read
      unfold Literal.infinity? at read
      simp only at read
      split_ifs at read <;> cases read <;> rfl

section

variable {ns : List ℤ}
  (read : integers leastWord greatestWord (words.filter fun w => !w.isMissing) = .cells ns)

include read

/-- Where the words are read as integers, every present one is an integer. -/
theorem integer_of_present {w : Word} (hw : w ∈ words) (present : w.isMissing = false) :
    ∃ n, Literal.integer leastWord greatestWord w = .integer n ∧
      readIn words w = .ok (Binary64.ofInt n) := by
  have each : ∀ v ∈ words, v.isMissing = false →
      ∃ n, Literal.integer leastWord greatestWord v = .integer n := by
    intro v hv there
    obtain ⟨n, -, number⟩ := exists_of_forall₂ (integers_cells read).flip
      (List.mem_filter.mpr ⟨hv, by rw [there]; rfl⟩)
    exact ⟨n, number⟩
  have integral : (words.all fun v => v.isMissing || (integer? v).isSome) = true := by
    refine List.all_eq_true.mpr fun v hv => ?_
    cases there : v.isMissing with
    | true => rfl
    | false =>
        obtain ⟨n, number⟩ := each v hv there
        rw [integer?, number]
        rfl
  obtain ⟨n, number⟩ := each w hw present
  exact ⟨n, number, readIn_integer present integral (by rw [integer?, number])⟩

/-- Among integers, missing cells make all cells doubles. -/
theorem score_doubleOfWord {w : Word} (hw : w ∈ words) :
    (doubleOfWord w).score = readIn words w := by
  cases present : w.isMissing with
  | true =>
      have cell : doubleOfWord w = .double (0 / 0) := by rw [doubleOfWord, present]
      rw [readIn_missing present, cell]
      rfl
  | false =>
      obtain ⟨n, number, same⟩ := integer_of_present read hw present
      have cell : doubleOfWord w = .double (Binary64.ofInt n) := by
        rw [doubleOfWord, present, number]
      rw [same, cell, score_double (Binary64.number_ofInt n)]

/-- The cells of words that are all integers. -/
theorem readIn_integers :
    List.Forall₂ (fun w c => Cell.score c = readIn words w) words
      (if (words.filter fun w => !w.isMissing).length < words.length then words.map doubleOfWord
        else ns.map .word) := by
  split
  · rw [List.forall₂_map_right_iff, List.forall₂_same]
    exact fun w hw => score_doubleOfWord read hw
  · next whole =>
    -- no word is missing, so the integers are those of all words
    have kept := List.length_filter_le (fun w : Word => !w.isMissing) words
    have present : (words.filter fun w => !w.isMissing) = words :=
      List.filter_sublist.eq_of_length (Nat.le_antisymm kept (Nat.le_of_not_lt whole))
    have all := integers_cells read
    rw [present] at all
    rw [List.forall₂_map_right_iff]
    refine ((List.forall₂_and_left words ns).mpr ⟨fun w hw => hw, all⟩).imp ?_
    rintro w n ⟨hw, number⟩
    have there : w.isMissing = false := by
      rw [← present] at hw
      simpa using (List.mem_filter.mp hw).2
    obtain ⟨m, number', same⟩ := integer_of_present read hw there
    rw [number] at number'
    cases number'
    rw [same]
    rfl

end

theorem isSome_doubles? (words : List Word) :
    (doubles? words).isSome = words.all fun w => w.isMissing || (number? w).isSome := by
  rw [doubles?, isSome_cells?]
  simp only [Option.isSome_map]
  rfl

theorem isSome_truths? (words : List Word) :
    (truths? words).isSome = words.all fun w => w.isMissing || w.truth?.isSome := by
  rw [truths?, isSome_cells?]
  simp only [Option.isSome_map]

/-- The cell of a word that is read one by one, by what a missing cell and a present one are. -/
theorem readIn_of_cell {missing c : Cell} {w : Word} {read : Option Cell}
    (zero : missing.score = .ok 0)
    (present : w.isMissing = false → read = some c → c.score = readIn words w)
    (cell : (if w.isMissing then some missing else read) = some c) : c.score = readIn words w := by
  cases given : w.isMissing with
  | true =>
      rw [given, if_pos rfl] at cell
      cases cell
      rw [readIn_missing given, zero]
  | false =>
      rw [given, if_neg Bool.false_ne_true] at cell
      exact present given cell

/-- The cells of words that are not all integers. -/
theorem readIn_others (mixed : ∃ w ∈ words, w.isMissing = false ∧ integer? w = none)
    (made : others words = .ok cells) :
    List.Forall₂ (fun w c => Cell.score c = readIn words w) words cells := by
  have fraction : ¬ (words.all fun v => v.isMissing || (integer? v).isSome) = true := by
    obtain ⟨w, hw, present, none⟩ := mixed
    intro all
    have this := List.all_eq_true.mp all w hw
    rw [present, none] at this
    cases this
  have numeric := isSome_doubles? words
  have logical := isSome_truths? words
  unfold others at made
  cases numbers : doubles? words with
  | some all =>
      rw [numbers] at made numeric
      cases made
      refine (mapM_some_iff.mp numbers).imp fun w c => readIn_of_cell rfl fun present read => ?_
      obtain ⟨x, number, rfl⟩ := Option.map_eq_some_iff.mp read
      rw [readIn_decimal present fraction numeric.symm number]
      exact score_double (number_of_number? number)
  | none =>
      rw [numbers] at made numeric
      have word : ¬ (words.all fun v => v.isMissing || (number? v).isSome) = true :=
        numeric ▸ Bool.false_ne_true
      cases truths : truths? words with
      | some all =>
          rw [truths] at made logical
          cases made
          refine (mapM_some_iff.mp truths).imp fun w c => readIn_of_cell rfl fun present read => ?_
          obtain ⟨b, truth, rfl⟩ := Option.map_eq_some_iff.mp read
          exact (readIn_truth present fraction word logical.symm truth).symm
      | none =>
          rw [truths] at made logical
          have text : ¬ (words.all fun v => v.isMissing || v.truth?.isSome) = true :=
            logical ▸ Bool.false_ne_true
          refine (mapM_ok_iff.mp made).imp fun w c cell => ?_
          cases present : w.isMissing with
          | true =>
              rw [present, if_pos rfl] at cell
              cases cell
              rw [readIn_missing present]
              rfl
          | false =>
              rw [present, if_neg Bool.false_ne_true] at cell
              exact (readIn_text present fraction word text cell).symm

/-- **The words of a plain column are read one by one.** -/
theorem scores_eq (plain : IsPlain words) (made : ofWords words = .ok cells) :
    scores words = words.mapM (readIn words) := by
  have each : List.Forall₂ (fun w c => Cell.score c = readIn words w) words cells := by
    unfold ofWords at made
    simp only at made
    split at made
    · next none =>
      obtain ⟨w, hw, reading⟩ := integersFrom_none none
      obtain ⟨hw, present⟩ := List.mem_filter.mp hw
      exact readIn_others ⟨w, hw, Bool.not_eq_true' _ ▸ present, by rw [integer?, reading]⟩ made
    · next large =>
      obtain ⟨w, hw, reading⟩ := integersFrom_tooLarge large
      exact absurd (isLarge_of_tooLarge reading) (plain w (List.mem_of_mem_filter hw))
    · next ns read =>
      cases made
      exact readIn_integers read
  rw [scores, made]
  exact mapM_congr_answers each

end Column

end Annealing.Table
