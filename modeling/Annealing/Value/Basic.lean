import Annealing.Text.Basic

/-!
# Value — the data a configuration holds

A configuration, its options and the costs of a scripted run are *values*: null, truth values,
integers of any size, double-precision numbers, texts, byte strings, lists, pairs and other tuples,
sets, dictionaries that keep the order of insertion, calendar dates and points in time.  Every
operation of the library that takes such data from outside takes a `Value` and says what it does
with each kind.

A list or a dictionary may contain itself.  The place where it comes again is a *knot*, which names
the collection by its number in a table (`Knots`), and `Knots.untie` puts the collection in the
place of its knot.

`Value.kind` is the kind of a value, the only thing about it that most refusals mention.
-/

namespace Annealing

/-- A day of the proleptic Gregorian calendar. -/
structure Date where
  year : Nat
  month : Nat
  day : Nat
deriving DecidableEq, Repr

/-- A day with a time of day, and the minutes that its clock is ahead of the prime meridian, if they
are known. -/
structure Instant where
  date : Date
  hour : Nat
  minute : Nat
  second : Nat
  microsecond : Nat
  ahead : Option Int
deriving DecidableEq, Repr

/-- The kinds of values. -/
inductive Kind where
  | null | bool | int | float | text | bytes | list | tuple | set | dict | date | instant
deriving DecidableEq, Repr

/-- Data without a fixed shape. -/
inductive Value where
  | null
  | bool (b : Bool)
  | int (n : Int)
  | float (x : Float)
  | text (t : Text)
  | bytes (octets : List UInt8)
  | list (items : List Value)
  | tuple (items : List Value)
  | set (members : List Value)
  | dict (entries : List (Value × Value))
  | date (d : Date)
  | instant (i : Instant)
  /-- A collection that is around this place, by its number. -/
  | knot (kind : Kind) (number : Nat)
deriving Inhabited

/-- The order relations that values may be asked for. -/
inductive Relation where
  | less | atMost | greater | atLeast
deriving DecidableEq, Repr

/-- Whether the relation holds between two things that compare so. -/
def Relation.holds : Relation → Ordering → Bool
  | .less, o => o == .lt
  | .atMost, o => o != .gt
  | .greater, o => o == .gt
  | .atLeast, o => o != .lt

namespace Value

/-- The kind of a value. -/
def kind : Value → Kind
  | .null => .null
  | .bool _ => .bool
  | .int _ => .int
  | .float _ => .float
  | .text _ => .text
  | .bytes _ => .bytes
  | .list _ => .list
  | .tuple _ => .tuple
  | .set _ => .set
  | .dict _ => .dict
  | .date _ => .date
  | .instant _ => .instant
  | .knot kind _ => kind

/-- A value counts as false when it is null, zero or empty.  What contains itself is not empty. -/
def truthy : Value → Bool
  | .null => false
  | .bool b => b
  | .int n => n != 0
  | .float x => x != 0
  | .text t => !t.isEmpty
  | .bytes b => !b.isEmpty
  | .list l | .tuple l | .set l => !l.isEmpty
  | .dict d => !d.isEmpty
  | .date _ | .instant _ | .knot .. => true

/-- The value itself if it counts as true, `other` if not. -/
def orElse (v other : Value) : Value :=
  if v.truthy then v else other

/-- The value of a string. -/
def ofString (s : String) : Value := .text (Text.ofString s)

end Value

/-! ### Knots -/

/-- The collections that contain themselves, each under its number. -/
abbrev Knots := Array Value

namespace Knots

/-- The collection that a knot stands for, and any other value itself. -/
def untie (knots : Knots) : Value → Value
  | .knot kind number => knots.getD number (.knot kind number)
  | v => v

end Knots

end Annealing
