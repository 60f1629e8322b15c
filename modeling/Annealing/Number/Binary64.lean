import Annealing.Number.Power

/-!
# Number — double-precision numbers as exact rationals

A finite double is `±mantissa · 2 ^ exponent`.  This module opens a double into those parts,
reads them as a ratio of integers, and closes a ratio into the nearest double.  Every exact step
of the library that touches a double goes through here: truncation, comparison with an integer of
any size, decimal digits and the reading of decimals.

* `Binary64.ofFloat?` opens a double; it has no parts exactly when it is infinite or not a number.
* `Binary64.nearest` is the double nearest to a ratio, the even one of two equally near.
* `Binary64.compareInt` compares a double with an integer without rounding either.
-/

namespace Annealing

/-- A finite double, `±mantissa · 2 ^ exponent`. -/
structure Binary64 where
  negative : Bool
  mantissa : Nat
  exponent : Int
deriving DecidableEq, Repr

namespace Binary64

/-- The parts of the double with this bit pattern. -/
def ofBits? (bits : Nat) : Option Binary64 :=
  let fraction : Nat := bits % 2 ^ 52
  let field : Nat := bits / 2 ^ 52 % 2 ^ 11
  let negative := bits / 2 ^ 63 % 2 == 1
  if field = 2 ^ 11 - 1 then none
  else if field = 0 then some ⟨negative, fraction, -1074⟩
  else some ⟨negative, 2 ^ 52 + fraction, (field : Int) - 1075⟩

/-- The parts of a double, none if it is infinite or not a number. -/
def ofFloat? (x : Float) : Option Binary64 :=
  ofBits? x.toBits.toNat

/-- Numerator and denominator of the magnitude. -/
def ratio (b : Binary64) : Nat × Nat :=
  if b.exponent < 0 then (b.mantissa, 2 ^ (-b.exponent).toNat)
  else (b.mantissa * 2 ^ b.exponent.toNat, 1)

/-- A magnitude under the sign. -/
def signed (b : Binary64) (n : Nat) : Int :=
  if b.negative then -(n : Int) else n

/-- The integer part, toward zero. -/
def truncate (b : Binary64) : Int :=
  b.signed (b.ratio.1 / b.ratio.2)

/-- The least integer not below the number. -/
def ceiling (b : Binary64) : Int :=
  0 - (0 - b.signed b.ratio.1) / (b.ratio.2 : Int)

/-- How the number compares with an integer. -/
def compareInt (b : Binary64) (n : Int) : Ordering :=
  compare (b.signed b.ratio.1) (n * b.ratio.2)

/-! ### Closing a ratio -/

/-- `⌊num / den⌋` or the next integer, whichever is nearer to `num / den`; a half goes to the even
one. -/
def divNearest (num den : Nat) : Nat :=
  let q := num / den
  let r := num % den
  if 2 * r < den then q
  else if den < 2 * r then q + 1
  else if q % 2 = 0 then q else q + 1

/-- `num / den / 2 ^ k`, to the nearest integer. -/
def scaleNearest (num den : Nat) (k : Int) : Nat :=
  if k < 0 then divNearest (num * 2 ^ (-k).toNat) den
  else divNearest num (den * 2 ^ k.toNat)

/-- The exponent of the grid of doubles around `num / den`: the one on which the quotient has
53 binary digits, but never below that of the smallest double. -/
def gridExponent (num den : Nat) : Int :=
  let guess : Int := (num.log2 : Int) - den.log2 - 53
  let fits := if guess + 53 < 0 then num * 2 ^ (-(guess + 53)).toNat < den
    else num < den * 2 ^ (guess + 53).toNat
  max (if fits then guess else guess + 1) (-1074)

/-- The bit pattern of the double nearest to `num / den`. -/
def nearestBits (num den : Nat) : Nat :=
  if num = 0 then 0
  else
    let k := gridExponent num den
    min ((k + 1074).toNat * 2 ^ 52 + scaleNearest num den k) (2047 * 2 ^ 52)

/-- The double nearest to `±num / den`; infinite if even the largest double is too small. -/
def nearest (negative : Bool) (num den : Nat) : Float :=
  let bits := nearestBits num den
  Float.ofBits (UInt64.ofNat (if negative then 2 ^ 63 + bits else bits))

/-- The double nearest to an integer. -/
def ofInt (n : Int) : Float :=
  nearest (n < 0) n.natAbs 1

/-- The double nearest to a quotient of integers. -/
def ofQuotient (a b : Int) : Float :=
  nearest ((a < 0) != (b < 0)) a.natAbs b.natAbs

/-- The double nearest to `±digits · 10 ^ exponent`.  Exponents beyond all doubles are cut off
first, so that no power of ten grows out of bounds. -/
def ofDecimal (negative : Bool) (digits : Nat) (exponent : Int) : Float :=
  if digits = 0 then nearest negative 0 1
  else
    let lead := exponent + (digits.log2 : Int) * 30103 / 100000
    if lead > 400 then nearest negative (2 ^ 1100) 1
    else if lead < -450 then nearest negative 0 1
    else if exponent < 0 then nearest negative digits (10 ^ (-exponent).toNat)
    else nearest negative (digits * 10 ^ exponent.toNat) 1

end Binary64

end Annealing
