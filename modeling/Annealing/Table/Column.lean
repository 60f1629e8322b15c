import Annealing.Table.Literal
import Annealing.Value.Shape

/-!
# Table — columns and their types

What the words of a column mean depends on all of them together.  The cells of a column are integers
of 64 bits if all its words are integers, doubles if all are numbers, truth values if all are, and
texts otherwise.  Some words stand for a missing cell; a column of integers with missing cells is
one of doubles.  Integers beyond 64 bits are kept as they are, unless only some of them need the
whole of 64 bits without a sign while others are negative or missing: then the words are texts, and
no word stands for a missing cell.

`Column.ofWords` finds the cells of a column, and fails if a word has to be a text and is none.  The
functions of `Cell` say what a cell is as a member, as the number of a row of preferences, as a
score, and as the key of a group.
-/

namespace Annealing.Table

/-- A cell of a column. -/
inductive Cell where
  /-- An integer of 64 bits with a sign. -/
  | word (n : Int)
  /-- An integer of 64 bits without a sign. -/
  | natural (n : Nat)
  /-- A double; one that is no number is missing. -/
  | double (x : Float)
  /-- A value of another kind; null is missing. -/
  | value (v : Value)

/-- The least and the greatest integer of 64 bits with a sign, and the greatest without. -/
def leastWord : Int := -(2 ^ 63)

@[inherit_doc leastWord]
def greatestWord : Int := 2 ^ 63 - 1

@[inherit_doc leastWord]
def greatestNatural : Int := 2 ^ 64 - 1

/-! ### Cells -/

namespace Cell

/-- The integer of 64 bits with a sign that has the same bits. -/
def wrapped (n : Nat) : Int := Int.bmod n (2 ^ 64)

/-- A double cut off toward zero; the least integer of 64 bits stands for what is outside them. -/
def cutOff (x : Float) : Int :=
  match Binary64.ofFloat? x with
  | some b => if leastWord ≤ b.truncate ∧ b.truncate ≤ greatestWord then b.truncate else leastWord
  | none => leastWord

/-- A value as an integer of 64 bits. -/
def wordOfValue : Value → Except Fault Int
  | .null => .error .nanToInteger
  | v => v.toWord

/-- The cell as a member of a group. -/
def member : Cell → Except Fault Int
  | .word n => .ok n
  | .natural n => .ok (wrapped n)
  | .double x => if x.isFinite then .ok (cutOff x) else .error .missingMember
  | .value v => wordOfValue v

/-- The cell as the number of a row of preferences. -/
def rowNumber : Cell → Except Fault Int
  | .word n => .ok n
  | .natural n => .ok (wrapped n)
  | .double x => .ok (cutOff x)
  | .value v => wordOfValue v

/-- The cell as a score; a missing one is zero. -/
def score : Cell → Except Fault Float
  | .word n => .ok (Binary64.ofInt n)
  | .natural n => .ok (Binary64.ofInt n)
  | .double x => .ok (if x.isNaN then 0 else x)
  | .value .null => .ok 0
  | .value v => v.toReal

/-- The cell as the key of a group, none if it is missing. -/
def key? : Cell → Option Value
  | .word n => some (.int n)
  | .natural n => some (.int n)
  | .double x => if x.isNaN then none else some (.float x)
  | .value .null => none
  | .value v => some v

end Cell

/-! ### Words -/

/-- The integer of any size that a word writes. -/
def anyInteger? (w : Word) : Option Int :=
  if w.octets.all (· < 0x80) then (Numeral.integer w.chars).toOption else none

namespace Column

/-- The cells of words that are read one by one, missing ones apart. -/
def cells? (missing : Cell) (read : Word → Option Cell) (words : List Word) : Option (List Cell) :=
  words.mapM fun w => if w.isMissing then some missing else read w

/-- What a column is when integers are expected: not one of integers, one with an integer that is
too large, or one of these. -/
inductive Integers where
  | none
  | tooLarge
  | cells (ns : List Int)

/-- Reads words as integers between two bounds up to the first that is none or too large.  `before`
are those read so far, the last one first. -/
def integersFrom (least greatest : Int) : (before : List Int) → List Word → Integers
  | before, [] => .cells before.reverse
  | before, w :: rest =>
      match Literal.integer least greatest w with
      | .none => .none
      | .tooLarge => .tooLarge
      | .integer n => integersFrom least greatest (n :: before) rest

/-- Reads words as integers between two bounds. -/
def integers (least greatest : Int) (words : List Word) : Integers :=
  integersFrom least greatest [] words

/-- A word as a text. -/
def textCell (w : Word) : Except Fault Cell := do
  return .value (.text (Text.ofChars (← w.text)))

/-- Words as texts. -/
def texts (words : List Word) : Except Fault (List Cell) :=
  words.mapM textCell

/-- Words as integers of any size, or as texts if one of them is no integer. -/
def anyIntegers (words : List Word) : Except Fault (List Cell) :=
  match cells? (.value .null) (fun w => (anyInteger? w).map fun n => .value (.int n)) words with
  | some cells => .ok cells
  | none => texts words

/-- Words as doubles. -/
def doubles? (words : List Word) : Option (List Cell) :=
  cells? (.double (0 / 0)) (fun w => (Literal.double w <|> Literal.infinity? w).map .double) words

/-- Words as truth values. -/
def truths? (words : List Word) : Option (List Cell) :=
  cells? (.value .null) (fun w => w.truth?.map fun b => .value (.bool b)) words

/-- Words that are not all integers. -/
def others (words : List Word) : Except Fault (List Cell) :=
  match doubles? words <|> truths? words with
  | some cells => .ok cells
  | none => words.mapM fun w => if w.isMissing then .ok (.value .null) else textCell w

/-- Whether a word writes an integer with a minus sign in front. -/
def isNegative (w : Word) : Bool :=
  (w.chars.dropWhile Text.isAsciiBlank).head? == some '-'

/-- Words one of which is an integer too large for 64 bits with a sign. -/
def largeIntegers (words : List Word) : Except Fault (List Cell) :=
  let present := words.filter fun w => !w.isMissing
  let signed := present.any isNegative
  match integers 0 greatestNatural (present.filter fun w => !isNegative w) with
  | .none => others words
  | .tooLarge => anyIntegers words
  | .cells ns =>
      if ns.any (greatestWord < ·) && (signed || present.length < words.length) then texts words
      else if signed then anyIntegers words
      else .ok (ns.map fun n => .natural n.toNat)

/-- The cell of a word in a column of integers with missing cells. -/
def doubleOfWord (w : Word) : Cell :=
  match w.isMissing, Literal.integer leastWord greatestWord w with
  | false, .integer n => .double (Binary64.ofInt n)
  | _, _ => .double (0 / 0)

/-- The cells of a column of words. -/
def ofWords (words : List Word) : Except Fault (List Cell) :=
  let present := words.filter fun w => !w.isMissing
  match integers leastWord greatestWord present with
  | .none => others words
  | .tooLarge => largeIntegers words
  | .cells ns =>
      .ok (if present.length < words.length then words.map doubleOfWord else ns.map .word)

end Column

end Annealing.Table
