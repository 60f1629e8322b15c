import Annealing.Fault
import Annealing.Number.Binary64

/-!
# Value — equality and order

Numbers compare by their exact numeric value across kinds: a truth value counts as zero or one, and
an integer is compared with a double without rounding either.  A number that is none is not equal
to, below or above anything.  Texts and byte strings compare by their codes, dates by the calendar,
and lists by the first place where they differ, and so do tuples.  Other kinds are equal or not and
have no order.  Points in time are the same when their clocks mean the same moment, but one with a
known distance from the prime meridian is never the same as one without.

* `Value.same` is equality.
* `Value.relate` asks for an order relation and refuses when the kinds have none.
-/

namespace Annealing

/-- The number that a value is. -/
inductive Number where
  | int (n : Int)
  | float (x : Float)

namespace Number

/-- How a double compares with an integer. -/
def compareFloatInt (x : Float) (n : Int) : Option Ordering :=
  match Binary64.ofFloat? x with
  | some b => some (b.compareInt n)
  | none => if x.isNaN then none else if x < 0 then some .lt else some .gt

/-- How two numbers compare; none if one of them is no number. -/
def compare? : Number → Number → Option Ordering
  | .int a, .int b => some (compare a b)
  | .float a, .float b =>
      if a < b then some .lt else if b < a then some .gt else if a == b then some .eq else none
  | .float a, .int b => compareFloatInt a b
  | .int a, .float b => (compareFloatInt b a).map Ordering.swap

end Number

/-- How two days compare. -/
def Date.compare (a b : Date) : Ordering :=
  (Ord.compare a.year b.year).then ((Ord.compare a.month b.month).then (Ord.compare a.day b.day))

/-- The number of days from the first day of the calendar to the first of March of a year, and
within such a year to the day of a month: years that start in March have their leap day at the
end. -/
def Date.dayNumber (d : Date) : Int :=
  let months : Int := (d.month : Int) + 9
  let year : Int := (d.year : Int) - 1 + months / 12
  365 * year + year / 4 - year / 100 + year / 400 + (153 * (months % 12) + 2) / 5 + d.day

/-- The microseconds from a fixed moment to the one that the clock shows. -/
def Instant.clock (i : Instant) : Int :=
  (((i.date.dayNumber * 24 + i.hour) * 60 + i.minute) * 60 + i.second) * 1000000 + i.microsecond

/-- Whether two points in time are the same. -/
def Instant.same (a b : Instant) : Bool :=
  match a.ahead, b.ahead with
  | none, none => a == b
  | some m, some n => a.clock - m * 60000000 == b.clock - n * 60000000
  | _, _ => false

namespace Value

/-- The number that a value is, if it is one. -/
def number? : Value → Option Number
  | .bool b => some (.int (if b then 1 else 0))
  | .int n => some (.int n)
  | .float x => some (.float x)
  | _ => none

mutual

/-- Whether two values are equal. -/
def same : Value → Value → Bool
  | .null, .null => true
  | .text s, .text t => s == t
  | .bytes a, .bytes b => a == b
  | .date a, .date b => a == b
  | .instant a, .instant b => a.same b
  | .list a, .list b => sameItems a b
  | .tuple a, .tuple b => sameItems a b
  | .set a, .set b => a.length == b.length && sameMembers a b
  | .dict a, .dict b => a.length == b.length && sameEntries a b
  | a, b =>
      match a.number?, b.number? with
      | some m, some n => m.compare? n == some .eq
      | _, _ => false

/-- Whether two lists have equal items at every place. -/
def sameItems : List Value → List Value → Bool
  | [], [] => true
  | a :: as, b :: bs => same a b && sameItems as bs
  | _, _ => false

/-- Whether every member is also one of `others`. -/
def sameMembers : List Value → List Value → Bool
  | [], _ => true
  | v :: rest, others => others.any (fun w => same v w) && sameMembers rest others

/-- Whether every entry is also one of `others`. -/
def sameEntries : List (Value × Value) → List (Value × Value) → Bool
  | [], _ => true
  | (k, v) :: rest, others =>
      others.any (fun e => same k e.1 && same v e.2) && sameEntries rest others

end

mutual

/-- Asks whether an order relation holds between two values. -/
def relate (r : Relation) : Value → Value → Except Fault Bool
  | .text s, .text t => .ok (r.holds (Text.compare s t))
  | .bytes a, .bytes b => .ok (r.holds (compare a b))
  | .date a, .date b => .ok (r.holds (a.compare b))
  | .list a, .list b => relateItems r a b
  | .tuple a, .tuple b => relateItems r a b
  | a, b =>
      match a.number?, b.number? with
      | some m, some n => .ok ((m.compare? n).any r.holds)
      | _, _ => .error (.unordered r a.kind b.kind)

/-- Asks for the relation at the first place where two lists differ, or between their lengths if
they do not. -/
def relateItems (r : Relation) : List Value → List Value → Except Fault Bool
  | a :: as, b :: bs => if same a b then relateItems r as bs else relate r a b
  | [], bs => .ok (r.holds (compare 0 bs.length))
  | _ :: _, [] => .ok (r.holds .gt)

end

/-- Asks whether `a` is below `b`. -/
def less (a b : Value) : Except Fault Bool := relate .less a b

end Value

end Annealing
