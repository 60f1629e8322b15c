import Annealing.Text.Basic
import Annealing.Text.Printable

/-!
# Text — quoted texts

Messages and lists show a text between quotes.  The quotes are single, unless the text holds a
single quote and no double one.  A backslash, the quote in use and every character that cannot be
printed are escaped.
-/

namespace Annealing.Text

/-- The last `width` hexadecimal digits of a number. -/
def hexDigits (width n : Nat) : List Char :=
  let digits := Nat.toDigits 16 n
  List.replicate (width - digits.length) '0' ++ digits

/-- The quote for a text that does or does not hold each of the two. -/
def quoteFor (hasSingle hasDouble : Bool) : Char :=
  if hasSingle && !hasDouble then '"' else '\''

/-- A character inside `quote`. -/
def escape (quote c : Char) : List Char :=
  if c = quote ∨ c = '\\' then ['\\', c]
  else if c = '\n' then ['\\', 'n']
  else if c = '\r' then ['\\', 'r']
  else if c = '\t' then ['\\', 't']
  else if isPrintable c then [c]
  else if c.toNat < 0x100 then '\\' :: 'x' :: hexDigits 2 c.toNat
  else if c.toNat < 0x10000 then '\\' :: 'u' :: hexDigits 4 c.toNat
  else '\\' :: 'U' :: hexDigits 8 c.toNat

/-- A symbol inside `quote`.  A half cannot be printed. -/
def escapeSymbol (quote : Char) : Symbol → List Char
  | .char c => escape quote c
  | s => '\\' :: 'u' :: hexDigits 4 s.code

/-- A text between quotes. -/
def quoted (t : Text) : List Char :=
  let quote := quoteFor (t.contains (.char '\'')) (t.contains (.char '"'))
  quote :: t.flatMap (escapeSymbol quote) ++ [quote]

/-- An octet inside `quote`. -/
def escapeOctet (quote : Char) (b : UInt8) : List Char :=
  let c := Char.ofNat b.toNat
  if b < 0x7F then
    if b < 0x20 ∧ c ≠ '\n' ∧ c ≠ '\r' ∧ c ≠ '\t' then '\\' :: 'x' :: hexDigits 2 b.toNat
    else escape quote c
  else '\\' :: 'x' :: hexDigits 2 b.toNat

/-- A byte string between quotes, marked as one. -/
def quotedOctets (b : List UInt8) : List Char :=
  let quote := quoteFor (b.contains 0x27) (b.contains 0x22)
  'b' :: quote :: b.flatMap (escapeOctet quote) ++ [quote]

end Annealing.Text
