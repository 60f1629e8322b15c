import Annealing.Number.Power

/-!
# Text — texts

A text is a list of *symbols*.  A symbol is a character, or half of a surrogate pair that stands
alone: documents can name such a code unit by an escape, although no character has its code.

* `Symbol.code` is the code point of a symbol, and no two symbols share one.
* `Text.ofString` is the text of a string.
* `Text.chars` are the characters of a text, with a replacement for every half.
-/

namespace Annealing

/-- A character, or half of a surrogate pair that stands alone. -/
inductive Symbol where
  | char (c : Char)
  /-- The code unit that is `place` above the first of all halves. -/
  | half (place : Fin 0x800)
deriving DecidableEq, Repr

namespace Symbol

/-- The code unit of the first of all halves. -/
def firstHalf : Nat := 0xD800

/-- The code point of a symbol. -/
def code : Symbol → Nat
  | .char c => c.toNat
  | .half place => firstHalf + place

/-- The symbol of a code point; none beyond the last of them. -/
def ofCode? (code : Nat) : Option Symbol :=
  if h : firstHalf ≤ code ∧ code < firstHalf + 0x800 then some (.half ⟨code - firstHalf, by omega⟩)
  else if code ≤ 0x10FFFF then some (.char (Char.ofNat code))
  else none

/-- The character, with a replacement for a half. -/
def toChar : Symbol → Char
  | .char c => c
  | .half _ => '\uFFFD'

/-- Whether a symbol is half of a surrogate pair. -/
def isHalf : Symbol → Bool
  | .char _ => false
  | .half _ => true

end Symbol

/-- A list of symbols. -/
abbrev Text := List Symbol

namespace Text

/-- The text of characters. -/
def ofChars (cs : List Char) : Text := cs.map .char

/-- The text of a string. -/
def ofString (s : String) : Text := ofChars s.toList

instance : Coe String Text := ⟨ofString⟩

/-- The characters of a text, with a replacement for every half. -/
def chars (t : Text) : List Char := t.map Symbol.toChar

/-- How two texts compare by the code points at the first place where they differ. -/
def compare : Text → Text → Ordering
  | [], [] => .eq
  | [], _ :: _ => .lt
  | _ :: _, [] => .gt
  | a :: as, b :: bs => (Ord.compare a.code b.code).then (compare as bs)

end Text

end Annealing
