import Annealing.Number.Binary64

/-!
# Number — the fewest digits that read back

A finite positive double `b` stands for the interval of reals that round to it.  Its *shortest
decimal* is the decimal `digits · 10 ^ exponent` in that interval with the fewest digits, and of
those the nearest to `b`.

On the grid of multiples of `10 ^ p` only the two neighbours of `b` need a look: if any point of
the grid lies in the interval, one of them does.  `shortest` walks through the grids on which `b`
has one digit, two digits, … and takes the first with a hit; seventeen digits always suffice.

All quantities are integers.  The interval is measured in quarters of a unit of the last binary
place (`Interval.unit`), so that both of its ends are whole.
-/

namespace Annealing

/-- The decimal `digits · 10 ^ exponent`. -/
structure Decimal where
  digits : Nat
  exponent : Int
deriving DecidableEq, Repr

namespace Binary64

/-- The reals that round to a double, in multiples of `num / den`: from `low` to `high`, ends
included when `closed`. -/
structure Interval where
  num : Nat
  den : Nat
  low : Nat
  value : Nat
  high : Nat
  closed : Bool
deriving Repr

/-- The interval of a double.  Below a power of two the next double is half as far. -/
def interval (b : Binary64) : Interval :=
  let q := b.exponent - 2
  let narrow := b.mantissa = 2 ^ 52 ∧ -1074 < b.exponent
  { num := if q < 0 then 1 else 2 ^ q.toNat
    den := if q < 0 then 2 ^ (-q).toNat else 1
    low := 4 * b.mantissa - (if narrow then 1 else 2)
    value := 4 * b.mantissa
    high := 4 * b.mantissa + 2
    closed := b.mantissa % 2 == 0 }

namespace Interval

/-- The same interval measured in multiples of `10 ^ p`. -/
def onGrid (I : Interval) (p : Int) : Interval :=
  if p < 0 then { I with num := I.num * 10 ^ (-p).toNat } else { I with
    den := I.den * 10 ^ p.toNat }

/-- Whether the integer `d` lies in the interval. -/
def holds (I : Interval) (d : Nat) : Bool :=
  if I.closed then I.low * I.num ≤ d * I.den && d * I.den ≤ I.high * I.num
  else I.low * I.num < d * I.den && d * I.den < I.high * I.num

/-- The integer in the interval nearest to its value, if there is one. -/
def nearest? (I : Interval) : Option Nat :=
  let d := I.value * I.num / I.den
  match I.holds d, I.holds (d + 1) with
  | false, false => none
  | true, false => some d
  | false, true => some (d + 1)
  | true, true => some (divNearest (I.value * I.num) I.den)

/-- The least `k` among `guess`, `guess + 1`, … with the value below `10 ^ k`, trying `tries` of
them. -/
def magnitude (I : Interval) : Nat → Int → Int
  | 0, guess => guess
  | tries + 1, guess =>
      let J := I.onGrid guess
      if J.value * J.num < J.den then guess else magnitude I tries (guess + 1)

end Interval

/-- The shortest decimal of a positive finite double, starting at grids of `n` digits. -/
def shortestFrom (I : Interval) (k : Int) : Nat → Nat → Decimal
  | 0, n => ⟨(I.onGrid (k - n)).nearest?.getD 0, k - n⟩
  | more + 1, n =>
      match (I.onGrid (k - n)).nearest? with
      | some d => ⟨d, k - n⟩
      | none => shortestFrom I k more (n + 1)

/-- The decimal with the fewest digits that reads back as the double's magnitude. -/
def shortest (b : Binary64) : Decimal :=
  if b.mantissa = 0 then ⟨0, 0⟩
  else
    let I := b.interval
    let guess := Int.fdiv (((b.mantissa.log2 : Int) + b.exponent) * 30103) 100000
    shortestFrom I (I.magnitude 3 guess) 16 1

end Binary64

end Annealing
