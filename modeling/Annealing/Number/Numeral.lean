import Annealing.Number.Binary64
import Annealing.Text.Blank
import Annealing.Text.Digit

/-!
# Number — numbers in texts

A numeral stands alone in its text, blanks around it apart.  Its digits may come from any script,
and a single underscore may stand between two of them.

* An integer is a sign and digits (`Numeral.integer`).  At most `Numeral.digitLimit` digits are
  read, and a longer run is refused even when something else follows it.
* A real number is a sign, digits with a point before, among or after them and an exponent, or one
  of the names of infinity and of the number that is none (`Numeral.real`).
-/

namespace Annealing.Numeral

/-- Why a text is no integer. -/
inductive Refusal where
  | malformed
  | tooLong (digits : Nat)
deriving DecidableEq, Repr

/-- The greatest count of digits of an integer in a text. -/
def digitLimit : Nat := 4300

/-- The blanks around a numeral: all but the four separators of ASCII. -/
def isBlank (c : Char) : Bool :=
  Text.isBlank c && !(0x1C ≤ c.toNat && c.toNat ≤ 0x1F)

/-- The text with every digit of any script replaced by its ASCII digit. -/
def plainDigits (cs : List Char) : List Char :=
  cs.map fun c => if c.toNat < 0x80 then c else (Text.digitValue? c).elim c fun d =>
    Char.ofNat (48 + d)

/-- The sign at the front of a text, and what follows it. -/
def splitSign : List Char → Bool × List Char
  | '-' :: rest => (true, rest)
  | '+' :: rest => (false, rest)
  | cs => (false, cs)

/-- The value of ASCII digits. -/
def valueOf (digits : List Char) : Nat :=
  digits.foldl (fun n c => 10 * n + (c.toNat - 48)) 0

/-- The digits at the front of a text, single underscores between them left out, and what follows.
None if an underscore stands anywhere else; `after` says whether a digit has just been read. -/
def digitRun (after : Bool) : List Char → Option (List Char × List Char)
  | [] => some ([], [])
  | '_' :: c :: rest =>
      if after && c.isDigit then (digitRun true rest).map fun r => (c :: r.1, r.2) else none
  | c :: rest =>
      if c.isDigit then (digitRun true rest).map fun r => (c :: r.1, r.2)
      else if c = '_' then none
      else some ([], c :: rest)

/-- The integer that a text holds. -/
def integer (text : List Char) : Except Refusal Int :=
  let (negative, body) := splitSign (Text.strip isBlank (plainDigits text))
  match digitRun false body with
  | none => .error .malformed
  | some (digits, rest) =>
      if digits.length > digitLimit then .error (.tooLong digits.length)
      else if digits.isEmpty || !rest.isEmpty then .error .malformed
      else .ok (if negative then -(valueOf digits : Int) else valueOf digits)

/-- The exponent at the front of a text; none if it has no digits. -/
def exponent : List Char → Option (Int × List Char)
  | c :: rest =>
      if c = 'e' ∨ c = 'E' then
        let (negative, body) := splitSign rest
        let digits := body.takeWhile Char.isDigit
        if digits.isEmpty then none
        else some (if negative then -(valueOf digits : Int) else valueOf digits,
          body.drop digits.length)
      else some (0, c :: rest)
  | [] => some (0, [])

/-- An unsigned decimal without underscores: all its digits, and its exponent. -/
def unsignedDecimal (body : List Char) : Option (List Char × Int) :=
  let whole := body.takeWhile Char.isDigit
  let (fraction, rest) : List Char × List Char :=
    match body.drop whole.length with
    | '.' :: rest => (rest.takeWhile Char.isDigit, rest.dropWhile Char.isDigit)
    | rest => ([], rest)
  if whole.isEmpty && fraction.isEmpty then none
  else
    match exponent rest with
    | some (e, []) => some (whole ++ fraction, e - fraction.length)
    | _ => none

/-- The text without its underscores; none if one of them does not stand between two digits. -/
def dropUnderscores (before : Bool) : List Char → Option (List Char)
  | [] => some []
  | '_' :: rest =>
      if before && (rest.head?.any Char.isDigit) then dropUnderscores false rest else none
  | c :: rest => (dropUnderscores c.isDigit rest).map (c :: ·)

/-- Names of the numbers that have no digits. -/
def named? (negative : Bool) (body : List Char) : Option Float :=
  let name := String.ofList (body.map Char.toLower)
  if name = "inf" ∨ name = "infinity" then some (if negative then -1 / 0 else 1 / 0)
  else if name = "nan" then some (0 / 0)
  else none

/-- The real number that a text holds. -/
def real (text : List Char) : Option Float := do
  let (negative, body) := splitSign (Text.strip isBlank (plainDigits text))
  match named? negative body with
  | some x => some x
  | none =>
      let (digits, e) ← unsignedDecimal (← dropUnderscores false body)
      some (Binary64.ofDecimal negative (valueOf digits) e)

end Annealing.Numeral
