import Annealing.Document.Yaml.Schema
import Annealing.Document.Json.Reader
import Annealing.Text.Small
import Annealing.Value.Convert
import Annealing.Value.Show

/-!
# Document — numbers, dates and octets in YAML

The conversions from the text of a scalar to a value of the type that its tag names.  A tag that is
written out may be on any text, so every conversion can fail.

* Integers may be binary, octal, hexadecimal or in base sixty (`integer`), doubles in base sixty
  (`double`).
* A point in time without a time of day is a date (`moment`).
* Octets are written in base 64 (`octets`).
-/

namespace Annealing.Yaml

/-- A text without underscores. -/
def withoutUnderscores (t : Text) : Text := t.filter (· ≠ .char '_')

/-- The sign of a number and the text behind it; a number must not be empty. -/
def signOf : Text → Except Fault (Bool × Text)
  | [] => .error .emptyNumeral
  | .char '-' :: rest => .ok (true, rest)
  | .char '+' :: rest => .ok (false, rest)
  | t => .ok (false, t)

/-- The parts of a text between colons. -/
def colonParts (t : Text) : List Text :=
  t.foldr (fun s parts =>
    if s = .char ':' then [] :: parts
    else match parts with
      | first :: rest => (s :: first) :: rest
      | [] => [[s]]) [[]]

/-! ### Integers -/

/-- The letter that may stand behind a zero in front of the digits of a base. -/
def baseLetter : Nat → Char
  | 2 => 'b'
  | 8 => 'o'
  | _ => 'x'

/-- Digits of a base without the zero and the letter in front of them. -/
def withoutBaseMark (base : Nat) : List Char → List Char
  | '0' :: c :: rest => if c.toLower = baseLetter base then rest else '0' :: c :: rest
  | cs => cs

/-- The integer that digits of a base write. -/
def integerIn (base : Nat) (t : Text) : Except Fault Int :=
  let (negative, body) :=
    Numeral.splitSign (Text.strip Numeral.isBlank (Numeral.plainDigits t.chars))
  let digits := withoutBaseMark base body
  let value? := digits.foldlM (fun n d => do
    let k ← Json.hexValue? d
    if k < base then some (base * n + k) else none) 0
  match if digits.isEmpty then none else value? with
  | some n => .ok (if negative then -(n : Int) else n)
  | none => .error (.malformedInteger base (.text t))

/-- The integer that a text writes in base ten. -/
def decimalInteger (t : Text) : Except Fault Int := Value.readInt (.text t) t.chars

/-- The magnitude of an integer. -/
def magnitude (t : Text) : Except Fault Int :=
  match t with
  | [] => .error .emptyNumeral
  | [.char '0'] => .ok 0
  | .char '0' :: .char 'b' :: rest => integerIn 2 rest
  | .char '0' :: .char 'x' :: rest => integerIn 16 rest
  | .char '0' :: _ => integerIn 8 t
  | _ =>
      if t.contains (.char ':') then do
        let places ← (colonParts t).mapM decimalInteger
        return places.foldl (fun n place => 60 * n + place) 0
      else decimalInteger t

/-- The integer that a text writes. -/
def integer (t : Text) : Except Fault Int := do
  let (negative, body) ← signOf (withoutUnderscores t)
  let n ← magnitude body
  return if negative then -n else n

/-! ### Doubles -/

/-- The double that a text writes in base ten. -/
def decimalDouble (t : Text) : Except Fault Float := Value.readReal (.text t) t.chars

/-- The sum of the places of a number in base sixty, the least significant first. -/
def sumPlaces : (sum : Float) → (weight : Nat) → List Float → Except Fault Float
  | sum, _, [] => .ok sum
  | sum, weight, place :: rest => do
      sumPlaces (sum + place * (← realOfInt weight)) (60 * weight) rest

/-- The double that a text writes. -/
def double (t : Text) : Except Fault Float := do
  let (negative, body) ← signOf (Text.small (withoutUnderscores t))
  let sign : Float := if negative then -1 else 1
  if body = Text.ofString ".inf" then return sign * (1 / 0)
  else if body = Text.ofString ".nan" then return 0 / 0
  else if body.contains (.char ':') then
    let places ← (colonParts body).mapM decimalDouble
    return sign * (← sumPlaces 0 1 places.reverse)
  else return sign * (← decimalDouble body)

/-- Whether a text names the one number that is none by its own name. -/
def namesNaN (t : Text) : Bool :=
  match signOf (Text.small (withoutUnderscores t)) with
  | .ok (_, body) => body = Text.ofString ".nan"
  | .error _ => false

/-! ### Points in time -/

/-- Whether a year has a leap day. -/
def isLeapYear (year : Nat) : Bool :=
  year % 4 = 0 && (year % 100 ≠ 0 || year % 400 = 0)

/-- The number of days of a month. -/
def daysIn (year month : Nat) : Nat :=
  if month = 2 then (if isLeapYear year then 29 else 28)
  else if [4, 6, 9, 11].contains month then 30 else 31

/-- A day of the calendar. -/
def checkedDate (year month day : Nat) : Except Fault Date :=
  if year = 0 then .error (.badDate "year 0 is out of range")
  else if month = 0 ∨ 12 < month then .error (.badDate "month must be in 1..12")
  else if day = 0 ∨ daysIn year month < day then .error (.badDate "day is out of range for month")
  else .ok ⟨year, month, day⟩

/-- What is wrong with a time zone that is a day or more away: its distance, in days and the seconds
above them. -/
def farZone (minutes : Int) : String :=
  let (days, seconds) := (minutes.fdiv 1440, 60 * minutes.fmod 1440)
  let above := if seconds = 0 then "" else s!", seconds={seconds}"
  "offset must be a timedelta strictly between -timedelta(hours=24) and timedelta(hours=24), "
    ++ s!"not datetime.timedelta(days={days}{above})."

/-- The minutes by which a time zone is ahead, which must stay below a day. -/
def minutesAhead : Option (Option (Bool × List Char × List Char)) → Except Fault (Option Int)
  | none => .ok none
  | some none => .ok (some 0)
  | some (some (negative, hours, minutes)) =>
      let total : Int := (60 * Numeral.valueOf hours + Numeral.valueOf minutes : Nat)
      let total := if negative then -total else total
      if 24 * 60 ≤ total.natAbs then .error (.badDate (farZone total)) else .ok (some total)

/-- The microseconds of the digits of a fraction of a second. -/
def microseconds (digits : List Char) : Nat :=
  Numeral.valueOf ((digits ++ List.replicate 6 '0').take 6)

/-- The date or the point in time that a text writes. -/
def moment (t : Text) : Except Fault Value :=
  match Schema.moment? (Schema.withoutLineEnd t.chars) with
  | none => .error (.lacksOperation .null "groupdict")
  | some m => do
      let date :=
        checkedDate (Numeral.valueOf m.year) (Numeral.valueOf m.month) (Numeral.valueOf m.day)
      match m.time with
      | none => return .date (← date)
      | some (hour, minute, second, fraction) => do
          let ahead ← minutesAhead m.zone
          let date ← date
          let (hour, minute, second) :=
            (Numeral.valueOf hour, Numeral.valueOf minute, Numeral.valueOf second)
          if 23 < hour then throw (.badDate "hour must be in 0..23")
          if 59 < minute then throw (.badDate "minute must be in 0..59")
          if 59 < second then throw (.badDate "second must be in 0..59")
          return .instant { date, hour, minute, second, microsecond := microseconds fraction,
                            ahead }

/-! ### Octets -/

/-- The value of a sign of base 64. -/
def sextet? (c : Char) : Option Nat :=
  if 'A' ≤ c ∧ c ≤ 'Z' then some (c.toNat - 65)
  else if 'a' ≤ c ∧ c ≤ 'z' then some (c.toNat - 71)
  else if '0' ≤ c ∧ c ≤ '9' then some (c.toNat + 4)
  else if c = '+' then some 62
  else if c = '/' then some 63
  else none

/-- The octets of signs of base 64; other signs are passed over.  `held` are the sextets of a group
that is not complete, the first of them first, and `pads` the equal signs behind it, which end the
text when they fill the group. -/
def octetsFrom :
    (before : List UInt8) → (held : List Nat) → (pads : Nat) → List Char → Option (List UInt8)
  | before, held, _, [] => if held.isEmpty then some before.reverse else none
  | before, held, pads, c :: rest =>
      if c = '=' then
        if 2 ≤ held.length ∧ 4 ≤ held.length + pads + 1 then some before.reverse
        else octetsFrom before held (if 2 ≤ held.length then pads + 1 else pads) rest
      else
        match sextet? c, held with
        | none, _ => octetsFrom before held pads rest
        | some x, [] => octetsFrom before [x] 0 rest
        | some x, [a] => octetsFrom (UInt8.ofNat (a * 4 + x / 16) :: before) [a, x] 0 rest
        | some x, [a, b] =>
            octetsFrom (UInt8.ofNat (b % 16 * 16 + x / 4) :: before) [a, b, x] 0 rest
        | some x, held =>
            octetsFrom (UInt8.ofNat (held.getLastD 0 % 4 * 64 + x) :: before) [] 0 rest

/-- The octets that a text writes in base 64. -/
def octets (t : Text) : Except Fault (List UInt8) :=
  if t.any (·.code ≥ 0x80) then .error .yaml
  else match octetsFrom [] [] 0 t.chars with
    | some b => .ok b
    | none => .error .yaml

end Annealing.Yaml
