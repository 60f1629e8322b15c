import Annealing.Document.Yaml.Cursor

/-!
# Document — the types of plain YAML scalars

A plain scalar without a tag has the type that its form shows: a truth value, an integer, a double,
null, a point in time, or one of the signs `<<` and `=`.  All others are texts.

`Schema.nameOf` is the name of the type.  One line feed at the end of a text does not count.  Each
form is a predicate on texts; no text has two of them, but for the order in which `nameOf` asks.
-/

namespace Annealing.Yaml.Schema

/-- The stem of the tags of the core types. -/
def stem : String := "tag:yaml.org,2002:"

/-- The tag of a core type. -/
def tag (name : String) : String := stem ++ name

/-- The words for truth and falsehood. -/
def truthWords : List String :=
  ["yes", "Yes", "YES", "no", "No", "NO", "true", "True", "TRUE", "false", "False", "FALSE",
   "on", "On", "ON", "off", "Off", "OFF"]

/-- The words for null. -/
def nullWords : List String := ["~", "null", "Null", "NULL", ""]

/-- A text without a sign at its front. -/
def unsigned : List Char → List Char
  | '+' :: rest => rest
  | '-' :: rest => rest
  | cs => cs

/-- Whether a text is not empty and all its characters are of a class. -/
def consistsOf (p : Char → Bool) (cs : List Char) : Bool := !cs.isEmpty && cs.all p

/-- A digit or an underscore. -/
def isDigitMark (c : Char) : Bool := c.isDigit || c = '_'

/-- A hexadecimal digit or an underscore. -/
def isHexMark (c : Char) : Bool :=
  c.isDigit || ('a' ≤ c && c ≤ 'f') || ('A' ≤ c && c ≤ 'F') || c = '_'

/-- Whether a text is digits and underscores after a first digit of a class. -/
def isWhole (first : Char → Bool) : List Char → Bool
  | c :: rest => first c && rest.all isDigitMark
  | [] => false

/-- The part of a text before a colon, and what follows the colon. -/
def splitColon (cs : List Char) : List Char × Option (List Char) :=
  let front := cs.takeWhile (· ≠ ':')
  match cs.drop front.length with
  | _ :: rest => (front, some rest)
  | [] => (front, none)

/-- Whether a text is one or two digits of a number below sixty. -/
def isSixtieth : List Char → Bool
  | [a] => a.isDigit
  | [a, b] => '0' ≤ a && a ≤ '5' && b.isDigit
  | _ => false

/-- Whether a text is places of sixtieths with colons between them, the last of which satisfies
`last`. -/
def areSixtieths (last : List Char → Bool) : (fuel : Nat) → List Char → Bool
  | 0, _ => false
  | fuel + 1, cs =>
      match splitColon cs with
      | (front, none) => last front
      | (front, some rest) => isSixtieth front && areSixtieths last fuel rest

/-- Whether a text is a number in base sixty whose last place satisfies `last`. -/
def isBaseSixty (first : Char → Bool) (last : List Char → Bool) (cs : List Char) : Bool :=
  match splitColon cs with
  | (front, some rest) => isWhole first front && areSixtieths last (rest.length + 1) rest
  | (_, none) => false

/-- Whether a digit is not zero. -/
def isPositiveDigit (c : Char) : Bool := '1' ≤ c && c ≤ '9'

/-- The form of an integer. -/
def isInteger (cs : List Char) : Bool :=
  let body := unsigned cs
  match body with
  | ['0'] => true
  | '0' :: 'b' :: rest => consistsOf (fun c => c = '0' || c = '1' || c = '_') rest
  | '0' :: 'x' :: rest => consistsOf isHexMark rest
  | '0' :: rest => consistsOf (fun c => ('0' ≤ c && c ≤ '7') || c = '_') rest
  | _ => isWhole isPositiveDigit body || isBaseSixty isPositiveDigit isSixtieth body

/-- Nothing, or the exponent of a double, whose sign must be written. -/
def isExponent : List Char → Bool
  | [] => true
  | e :: sign :: digits =>
      (e = 'e' || e = 'E') && (sign = '+' || sign = '-') && consistsOf Char.isDigit digits
  | _ => false

/-- The form of a double. -/
def isDouble (cs : List Char) : Bool :=
  let body := unsigned cs
  let signed := body.length < cs.length
  let front := body.takeWhile isDigitMark
  let behind := body.drop front.length
  let special := String.ofList body
  (match behind with
    | '.' :: rest =>
        let exponent := rest.dropWhile isDigitMark
        if front.isEmpty then
          !signed && isWhole Char.isDigit (rest.takeWhile isDigitMark) && isExponent exponent
        else isWhole Char.isDigit front && isExponent exponent
    | _ => false)
    || isBaseSixty Char.isDigit
      (fun last =>
        let whole := last.takeWhile Char.isDigit
        match last.drop whole.length with
        | '.' :: places => isSixtieth whole && places.all isDigitMark
        | _ => false) body
    || special == ".inf" || special == ".Inf" || special == ".INF"
    || (!signed && (special == ".nan" || special == ".NaN" || special == ".NAN"))

/-! ### Points in time -/

/-- The parts of a point in time as they are written. -/
structure Moment where
  year : List Char
  month : List Char
  day : List Char
  /-- Hour, minute, second, and the digits of the fraction. -/
  time : Option (List Char × List Char × List Char × List Char)
  /-- Nothing, or `Z`, or a sign with hours and minutes. -/
  zone : Option (Option (Bool × List Char × List Char))

/-- Between `least` and `greatest` digits at the front of a text. -/
def digits? (least greatest : Nat) (cs : List Char) : Option (List Char × List Char) :=
  let run := (cs.takeWhile Char.isDigit).take greatest
  if run.length < least then none else some (run, cs.drop run.length)

/-- A given character at the front of a text. -/
def sign? (c : Char) : List Char → Option (List Char)
  | d :: rest => if d = c then some rest else none
  | [] => none

/-- A time zone, which may be missing, up to the end of the text. -/
def zone? (cs : List Char) : Option (Option (Option (Bool × List Char × List Char))) :=
  if cs.isEmpty then some none
  else
    match cs.dropWhile fun c => c = ' ' || c = '\t' with
    | ['Z'] => some (some none)
    | c :: rest => do
        if c ≠ '+' ∧ c ≠ '-' then failure
        let (hours, rest) ← digits? 1 2 rest
        match rest with
        | [] => some (some (some (c = '-', hours, [])))
        | ':' :: rest =>
            let (minutes, rest) ← digits? 2 2 rest
            if rest.isEmpty then some (some (some (c = '-', hours, minutes))) else none
        | _ => none
    | [] => none

/-- The parts of a point in time. -/
def moment? (cs : List Char) : Option Moment := do
  let (year, rest) ← digits? 4 4 cs
  let (month, rest) ← digits? 1 2 (← sign? '-' rest)
  let (day, rest) ← digits? 1 2 (← sign? '-' rest)
  match rest with
  | [] => some ⟨year, month, day, none, none⟩
  | c :: behind => do
      let rest ←
        if c = 'T' ∨ c = 't' then some behind
        else if c = ' ' ∨ c = '\t' then some (rest.dropWhile fun c => c = ' ' || c = '\t')
        else none
      let (hour, rest) ← digits? 1 2 rest
      let (minute, rest) ← digits? 2 2 (← sign? ':' rest)
      let (second, rest) ← digits? 2 2 (← sign? ':' rest)
      let (fraction, rest) : List Char × List Char := match rest with
        | '.' :: rest => (rest.takeWhile Char.isDigit, rest.dropWhile Char.isDigit)
        | _ => ([], rest)
      some ⟨year, month, day, some (hour, minute, second, fraction), ← zone? rest⟩

/-- The form of a point in time: month and day have two digits unless a time follows. -/
def isMoment (cs : List Char) : Bool :=
  match moment? cs with
  | some m => m.time.isSome || (m.month.length = 2 && m.day.length = 2)
  | none => false

/-- A text without one line feed at its end, unless it is nothing else. -/
def withoutLineEnd (cs : List Char) : List Char :=
  if cs.getLast? = some '\n' ∧ cs ≠ ['\n'] then cs.dropLast else cs

/-- The name of the type that the form of a scalar shows. -/
def nameOf (t : Text) : String :=
  let cs := withoutLineEnd t.chars
  let text := String.ofList cs
  if truthWords.contains text then "bool"
  else if isDouble cs then "float"
  else if isInteger cs then "int"
  else if text = "<<" then "merge"
  else if nullWords.contains text then "null"
  else if isMoment cs then "timestamp"
  else if text = "=" then "value"
  else "str"

end Annealing.Yaml.Schema
