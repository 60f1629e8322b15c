import Annealing.Fault
import Annealing.Number.Layout
import Annealing.Number.Numeral
import Annealing.Text.Quoted
import Annealing.Value.Basic

/-!
# Value — how values are shown

`Value.literal` writes a value as it stands inside a list: texts quoted, lists in brackets,
dictionaries in braces.  `Value.plain` is the same but for a text, which stands as it is, and for
dates and points in time, which stand without their names.

Both write integers of any size.  Whatever goes into a file or a message is written by
`Value.written`, or after a look at `Value.isShort`: an integer of too many digits has no text, and
neither has anything that it stands in.
-/

namespace Annealing

/-- `0` before a number below ten. -/
def twoDigits (n : Nat) : List Char :=
  if n < 10 then '0' :: Decimal.natural n else Decimal.natural n

/-- Four digits of a year. -/
def yearDigits (n : Nat) : List Char :=
  List.replicate (4 - (Decimal.natural n).length) '0' ++ Decimal.natural n

/-- Year, month and day with hyphens between them. -/
def Date.text (d : Date) : List Char :=
  yearDigits d.year ++ '-' :: twoDigits d.month ++ '-' :: twoDigits d.day

/-- Sign, hours and minutes of a clock that is ahead of the prime meridian by a number of
minutes. -/
def aheadText (minutes : Int) : List Char :=
  (if minutes < 0 then '-' else '+') :: twoDigits (minutes.natAbs / 60) ++ ':' ::
    twoDigits (minutes.natAbs % 60)

/-- Date and time of day with a space between them, the fraction of a second only if there is
one. -/
def Instant.text (i : Instant) : List Char :=
  let micro := Decimal.natural i.microsecond
  let fraction :=
    if i.microsecond = 0 then [] else '.' :: List.replicate (6 - micro.length) '0' ++ micro
  i.date.text ++ ' ' :: twoDigits i.hour ++ ':' :: twoDigits i.minute ++ ':' ::
    twoDigits i.second ++ fraction
    ++ (i.ahead.map aheadText).getD []

/-- The name of a kind of value. -/
def Kind.name : Kind → String
  | .null => "NoneType"
  | .bool => "bool"
  | .int => "int"
  | .float => "float"
  | .text => "str"
  | .bytes => "bytes"
  | .list => "list"
  | .tuple => "tuple"
  | .set => "set"
  | .dict => "dict"
  | .date => "datetime.date"
  | .instant => "datetime.datetime"

/-- The name of a kind of value without the part before the point. -/
def Kind.shortName : Kind → String
  | .date => "date"
  | .instant => "datetime"
  | k => k.name

/-- Texts with a comma and a space between them. -/
def commaSeparated : List (List Char) → List Char
  | [] => []
  | [x] => x
  | x :: rest => x ++ ',' :: ' ' :: commaSeparated rest

/-- The form of a length of time that names its days and the seconds above them. -/
def minutesLiteral (minutes : Int) : List Char :=
  let days := minutes.fdiv 1440
  let seconds := 60 * minutes.fmod 1440
  let parts := (if days = 0 then [] else ["days=".toList ++ Decimal.integer days])
    ++ (if seconds = 0 then [] else ["seconds=".toList ++ Decimal.integer seconds])
  "datetime.timedelta(".toList ++ commaSeparated parts ++ [')']

/-- The form of the distance of a clock from the prime meridian. -/
def aheadLiteral (minutes : Int) : List Char :=
  "tzinfo=datetime.timezone".toList
    ++ if minutes = 0 then ".utc".toList else '(' :: minutesLiteral minutes ++ [')']

/-- The form that names the parts of a point in time; parts that are zero are left out at the
end. -/
def Instant.literal (i : Instant) : List Char :=
  let fine := if i.microsecond ≠ 0 then [i.second, i.microsecond]
    else if i.second ≠ 0 then [i.second] else []
  let parts := [i.date.year, i.date.month, i.date.day, i.hour, i.minute] ++ fine
  "datetime.datetime(".toList
    ++ commaSeparated (parts.map Decimal.natural ++ (i.ahead.map aheadLiteral).toList) ++ [')']

namespace Value

mutual

/-- The text of a value inside a list. -/
def literal : Value → List Char
  | .null => "None".toList
  | .bool b => (if b then "True" else "False").toList
  | .int n => Decimal.integer n
  | .float x => Layout.plain.float x
  | .text t => Text.quoted t
  | .bytes b => Text.quotedOctets b
  | .list items => '[' :: commaSeparated (literals items) ++ [']']
  | .tuple [v] => '(' :: v.literal ++ [',', ')']
  | .tuple items => '(' :: commaSeparated (literals items) ++ [')']
  | .set [] => "set()".toList
  | .set members => '{' :: commaSeparated (literals members) ++ ['}']
  | .dict entries => '{' :: commaSeparated (entryLiterals entries) ++ ['}']
  | .date d =>
      "datetime.date(".toList
        ++ commaSeparated [Decimal.natural d.year, Decimal.natural d.month,
          Decimal.natural d.day] ++ [')']
  | .instant i => i.literal
  | .knot .dict _ => "{...}".toList
  | .knot .. => "[...]".toList

/-- The texts of the items of a list. -/
def literals : List Value → List (List Char)
  | [] => []
  | v :: rest => v.literal :: literals rest

/-- The texts of the entries of a dictionary. -/
def entryLiterals : List (Value × Value) → List (List Char)
  | [] => []
  | (k, v) :: rest => (k.literal ++ ':' :: ' ' :: v.literal) :: entryLiterals rest

end

/-- The text of a value that stands alone. -/
def plain : Value → Text
  | .text t => t
  | .date d => Text.ofChars d.text
  | .instant i => Text.ofChars i.text
  | v => Text.ofChars v.literal

mutual

/-- Whether no integer in a value has too many digits. -/
def isShort : Value → Bool
  | .int n => (Decimal.natural n.natAbs).length ≤ Numeral.digitLimit
  | .list items | .tuple items | .set items => areShort items
  | .dict entries => entriesAreShort entries
  | _ => true

/-- Whether no integer in the items of a list has too many digits. -/
def areShort : List Value → Bool
  | [] => true
  | v :: rest => v.isShort && areShort rest

/-- Whether no integer in the entries of a dictionary has too many digits. -/
def entriesAreShort : List (Value × Value) → Bool
  | [] => true
  | (k, v) :: rest => k.isShort && v.isShort && entriesAreShort rest

end

/-- The text of a value that stands alone, refused if an integer in it has too many digits. -/
def written (v : Value) : Except Fault Text :=
  if v.isShort then .ok v.plain else .error .tooLongToWrite

end Value

end Annealing
