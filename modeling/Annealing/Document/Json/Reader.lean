import Annealing.Number.Numeral
import Annealing.Value.Entries

/-!
# Document — reading JSON

`Json.read` reads the value that a JSON text holds.  Besides the standard form it takes `NaN`,
`Infinity` and `-Infinity` as numbers.  A number with a fraction or an exponent is a double, any
other an integer.  Of two entries with one key the later value stays, in the place of the earlier
one.  Two escapes that name the halves of a surrogate pair are one character; any other half stands
alone.

Every reading function takes what is left of the text and gives back what is left after it.  A
problem names its place by the number of characters left (`Json.Stop`), and `Json.read` turns that
into line, column and offset.
-/

namespace Annealing.Json

/-- Why reading stops: a problem with the number of characters left at its place, too many digits,
or too many brackets inside each other. -/
inductive Stop where
  | problem (kind : JsonProblem) (left : Nat)
  | tooManyDigits (count : Nat)
  | tooDeep
deriving DecidableEq

/-- What is read from the front of a text, and what is left of it. -/
abbrev Reading (α : Type) := Except Stop (α × List Char)

/-- How many brackets may be open at once. -/
def depthLimit : Nat := 990

/-- Whether a character may stand between tokens. -/
def isSpace (c : Char) : Bool :=
  c = ' ' || c = '\t' || c = '\n' || c = '\r'

/-- A text without the spaces at its front. -/
def skip (cs : List Char) : List Char :=
  cs.dropWhile isSpace

/-! ### Texts -/

/-- The value of a hexadecimal digit. -/
def hexValue? (c : Char) : Option Nat :=
  if '0' ≤ c ∧ c ≤ '9' then some (c.toNat - 48)
  else if 'a' ≤ c ∧ c ≤ 'f' then some (c.toNat - 87)
  else if 'A' ≤ c ∧ c ≤ 'F' then some (c.toNat - 55)
  else none

/-- The code unit of four hexadecimal digits that are not the end of the text. -/
def unit? : List Char → Option (Nat × List Char)
  | a :: b :: c :: d :: e :: rest => do
      let high := 16 * (← hexValue? a) + (← hexValue? b)
      let low := 16 * (← hexValue? c) + (← hexValue? d)
      return (256 * high + low, e :: rest)
  | _ => none

/-- The second half of a pair that is escaped at the front of a text, above the first of all second
halves. -/
def lowHalf? : List Char → Option (Nat × List Char)
  | '\\' :: 'u' :: more => do
      let (unit, rest) ← unit? more
      if 0xDC00 ≤ unit ∧ unit ≤ 0xDFFF then some (unit - 0xDC00, rest) else none
  | _ => none

/-- The symbol of a code unit, joined with the second half of a pair that may follow it. -/
def joined (unit : Nat) (rest : List Char) : Symbol × List Char :=
  let alone := (Symbol.ofCode? unit).getD (.char '\uFFFD')
  if 0xD800 ≤ unit ∧ unit ≤ 0xDBFF then
    match lowHalf? rest with
    | some (low, rest) => (.char (Char.ofNat (0x10000 + (unit - 0xD800) * 0x400 + low)), rest)
    | none => (alone, rest)
  else (alone, rest)

/-- The character that a letter after a backslash stands for. -/
def escaped? : Char → Option Char
  | '"' => some '"'
  | '\\' => some '\\'
  | '/' => some '/'
  | 'b' => some '\x08'
  | 'f' => some '\x0c'
  | 'n' => some '\n'
  | 'r' => some '\r'
  | 't' => some '\t'
  | _ => none

/-- The rest of a text up to its closing quote.  `opened` is what was left at the opening quote, and
`before` holds the symbols already read, the last one first. -/
def textRest (opened : Nat) : (fuel : Nat) → (before : Text) → List Char → Reading Text
  | 0, _, _ => .error (.problem .unterminated opened)
  | fuel + 1, before, cs =>
      match cs with
      | [] => .error (.problem .unterminated opened)
      | '"' :: rest => .ok (before.reverse, rest)
      | '\\' :: [] => .error (.problem .unterminated opened)
      | '\\' :: 'u' :: rest =>
          match unit? rest with
          | none => .error (.problem .badUnicodeEscape (rest.length + 1))
          | some (unit, rest) =>
              let (s, rest) := joined unit rest
              textRest opened fuel (s :: before) rest
      | '\\' :: c :: rest =>
          match escaped? c with
          | none => .error (.problem .badEscape (rest.length + 2))
          | some c => textRest opened fuel (.char c :: before) rest
      | c :: rest =>
          if c.toNat < 0x20 then .error (.problem .controlCharacter (rest.length + 1))
          else textRest opened fuel (.char c :: before) rest

/-- The text after an opening quote. -/
def text (rest : List Char) : Reading Text :=
  textRest (rest.length + 1) (rest.length + 1) [] rest

/-! ### Numbers -/

/-- The whole part of a number: one zero, or digits that do not start with one. -/
def whole : List Char → List Char × List Char
  | '0' :: rest => (['0'], rest)
  | cs => (cs.takeWhile Char.isDigit, cs.dropWhile Char.isDigit)

/-- The digits after a point, if a point with digits follows. -/
def fraction (cs : List Char) : Option (List Char × List Char) :=
  match cs with
  | '.' :: rest =>
      let digits := rest.takeWhile Char.isDigit
      if digits.isEmpty then none else some (digits, rest.dropWhile Char.isDigit)
  | _ => none

/-- The exponent, if one with digits follows. -/
def exponent (cs : List Char) : Option (Int × List Char) :=
  match cs with
  | c :: rest =>
      if c = 'e' ∨ c = 'E' then
        let (negative, body) := Numeral.splitSign rest
        let digits := body.takeWhile Char.isDigit
        if digits.isEmpty then none
        else
          let n : Int := Numeral.valueOf digits
          some (if negative then -n else n, body.dropWhile Char.isDigit)
      else none
  | [] => none

/-- A number. -/
def number (cs : List Char) : Reading Value :=
  let (negative, body) : Bool × List Char := match cs with
    | '-' :: rest => (true, rest)
    | _ => (false, cs)
  let (digits, rest) := whole body
  if digits.isEmpty then .error (.problem .value cs.length)
  else
    let point := fraction rest
    let afterPoint := point.elim rest (·.2)
    let power := exponent afterPoint
    if point.isNone && power.isNone then
      if digits.length > Numeral.digitLimit then .error (.tooManyDigits digits.length)
      else
        let n : Int := Numeral.valueOf digits
        .ok (.int (if negative then -n else n), rest)
    else
      let places := point.elim [] (·.1)
      let e := power.elim 0 (·.1) - (places.length : Int)
      .ok (.float (Binary64.ofDecimal negative (Numeral.valueOf (digits ++ places)) e),
        power.elim afterPoint (·.2))

/-! ### Values -/

/-- The items of a list after its opening bracket, each read by `item`. -/
def items (item : List Char → Reading Value) :
    (fuel : Nat) → (before : List Value) → List Char → Except Stop (Value × List Char)
  | 0, _, cs => .error (.problem .value cs.length)
  | fuel + 1, before, cs => do
      let (v, rest) ← item cs
      match skip rest with
      | ']' :: rest => return (.list (v :: before).reverse, rest)
      | ',' :: rest => items item fuel (v :: before) (skip rest)
      | rest => .error (.problem .comma rest.length)

/-- The entries of a dictionary after its opening brace, each value read by `item`. -/
def entries (item : List Char → Reading Value) :
    (fuel : Nat) → (before : Entries) → List Char → Except Stop (Value × List Char)
  | 0, _, cs => .error (.problem .propertyName cs.length)
  | fuel + 1, before, cs =>
      match cs with
      | '"' :: rest => do
          let (key, rest) ← text rest
          match skip rest with
          | ':' :: rest =>
              let (v, rest) ← item (skip rest)
              let now := before.insert (.text key) v
              match skip rest with
              | '}' :: rest => return (.dict now, rest)
              | ',' :: rest => entries item fuel now (skip rest)
              | rest => .error (.problem .comma rest.length)
          | rest => .error (.problem .colon rest.length)
      | _ => .error (.problem .propertyName cs.length)

/-- The words that stand for values. -/
def words : List (List Char × Value) :=
  [("null".toList, .null), ("true".toList, .bool true), ("false".toList, .bool false),
   ("NaN".toList, .float (0 / 0)), ("Infinity".toList, .float (1 / 0)),
   ("-Infinity".toList, .float (-1 / 0))]

/-- The word at the front of a text. -/
def word? (cs : List Char) : Option (Value × List Char) :=
  (words.find? fun w => w.1.isPrefixOf cs).map fun w => (w.2, cs.drop w.1.length)

/-- The value at the front of a text, with at most `depth` more brackets inside each other. -/
def value : (fuel depth : Nat) → List Char → Reading Value
  | 0, _, cs => .error (.problem .value cs.length)
  | fuel + 1, depth, cs =>
      match cs with
      | '"' :: rest => (text rest).map fun r => (.text r.1, r.2)
      | '[' :: rest =>
          if depth = 0 then .error .tooDeep
          else
            match skip rest with
            | ']' :: rest => .ok (.list [], rest)
            | rest => items (value fuel (depth - 1)) fuel [] rest
      | '{' :: rest =>
          if depth = 0 then .error .tooDeep
          else
            match skip rest with
            | '}' :: rest => .ok (.dict [], rest)
            | rest => entries (value fuel (depth - 1)) fuel [] rest
      | _ =>
          match word? cs with
          | some r => .ok r
          | none => number cs

/-- The value that the whole text holds. -/
def document (cs : List Char) : Except Stop Value := do
  if cs.head? = some '\uFEFF' then throw (.problem .byteOrderMark cs.length)
  let (v, rest) ← value (cs.length + 1) depthLimit (skip cs)
  let rest := skip rest
  if rest.isEmpty then return v else throw (.problem .extraData rest.length)

/-- A problem with line, column and offset of its place in the text. -/
def Stop.fault (cs : List Char) : Stop → Fault
  | .problem kind left =>
      let before := cs.take (cs.length - left)
      let inLine := (before.reverse.takeWhile (· != '\n')).length
      .json kind (before.count '\n' + 1) (inLine + 1) before.length
  | .tooManyDigits count => .tooManyDigits count
  | .tooDeep => .tooDeep

/-- The value that a JSON text holds. -/
def read (cs : List Char) : Except Fault Value :=
  (document cs).mapError (Stop.fault cs)

end Annealing.Json
