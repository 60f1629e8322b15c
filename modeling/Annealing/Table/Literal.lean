import Annealing.Number.Numeral
import Annealing.Table.Word

/-!
# Table — numbers in words

How a word of a table may write a number.  Blanks of ASCII may stand around it, and its digits are
those of ASCII.

* `Literal.integer` reads an integer, and tells a word that is none from an integer that is too
  large.  One that is too large must end its word; with blanks behind it, it counts as no integer
  but as a double.
* `Literal.double` is the double nearest to a decimal, infinite if it is beyond all doubles.
-/

namespace Annealing.Table.Literal

/-- What a word is when an integer is expected. -/
inductive Reading where
  | none
  | tooLarge
  | integer (n : Int)
deriving DecidableEq, Repr

/-- Reads an integer between two bounds. -/
def integer (least greatest : Int) (w : Word) : Reading :=
  let (negative, body) := Numeral.splitSign (w.chars.dropWhile Text.isAsciiBlank)
  let digits := body.takeWhile Char.isDigit
  let rest := body.dropWhile Char.isDigit
  let n : Int := Numeral.valueOf digits
  let n := if negative then -n else n
  if digits.isEmpty then .none
  else if n < least ∨ greatest < n then if rest.isEmpty then .tooLarge else .none
  else if rest.all Text.isAsciiBlank then .integer n
  else .none

/-- Reads a double. -/
def double (w : Word) : Option Float := do
  let (negative, body) := Numeral.splitSign (Text.strip Text.isAsciiBlank w.chars)
  let (digits, e) ← Numeral.unsignedDecimal body
  return Binary64.ofDecimal negative (Numeral.valueOf digits) e

/-- The infinity that a word names. -/
def infinity? (w : Word) : Option Float :=
  let (negative, body) := Numeral.splitSign w.chars
  let name := String.ofList (body.map Char.toLower)
  if name = "inf" ∨ name = "infinity" then some (if negative then -1 / 0 else 1 / 0) else none

end Annealing.Table.Literal
