import Annealing.Number.Shortest

/-!
# Number — how numbers are written

A `Layout` lists every decision about the text of a double that its digits leave open.  The
library has two: `Layout.plain` for tables and for values shown in messages, and `Layout.document`
for configuration documents, which spell the numbers without digits differently.
-/

namespace Annealing

/-- The decisions about the text of a double. -/
structure Layout where
  /-- The least decimal exponent written positionally. -/
  positionalFrom : Int
  /-- The least decimal exponent above those written positionally. -/
  positionalBelow : Int
  /-- The least count of exponent digits. -/
  exponentWidth : Nat
  notANumber : String
  infinity : String
deriving Repr

/-- Positional from `0.0001` to below `10 ^ 16`, always with a point, otherwise an exponent with a
sign and at least two digits. -/
def Layout.plain : Layout := ⟨-4, 16, 2, "nan", "inf"⟩

/-- As `Layout.plain`, with the names that documents give to the numbers without digits. -/
def Layout.document : Layout := { Layout.plain with notANumber := "NaN", infinity := "Infinity" }

/-- Decimal digits of a natural number. -/
def Decimal.natural (n : Nat) : List Char :=
  Nat.toDigits 10 n

/-- Decimal text of an integer. -/
def Decimal.integer (n : Int) : List Char :=
  if n < 0 then '-' :: Decimal.natural n.natAbs else Decimal.natural n.natAbs

namespace Layout

/-- The digits of a decimal with the point set after `point` of them. -/
def positional (digits : List Char) (point : Int) : List Char :=
  if point ≤ 0 then '0' :: '.' :: (List.replicate (-point).toNat '0' ++ digits)
  else
    let whole := digits.take point.toNat
    let rest := digits.drop point.toNat
    whole ++ List.replicate (point.toNat - digits.length) '0' ++ '.' ::
      (if rest.isEmpty then ['0'] else rest)

/-- The digits of a decimal with one of them before the point, and an exponent. -/
def scientific (L : Layout) (digits : List Char) (exponent : Int) : List Char :=
  let fraction := digits.drop 1
  let size := Decimal.natural exponent.natAbs
  digits.take 1 ++ (if fraction.isEmpty then [] else '.' :: fraction)
    ++ ['e', if exponent < 0 then '-' else '+']
    ++ List.replicate (L.exponentWidth - size.length) '0' ++ size

/-- The text of a nonnegative decimal. -/
def decimal (L : Layout) (d : Decimal) : List Char :=
  let digits := Decimal.natural d.digits
  let trimmed := digits.take 1 ++ ((digits.drop 1).reverse.dropWhile (· == '0')).reverse
  let exponent := d.exponent + (digits.length : Int) - 1
  if L.positionalFrom ≤ exponent ∧
    exponent < L.positionalBelow then positional trimmed (exponent + 1)
  else L.scientific trimmed exponent

/-- The text of a double. -/
def float (L : Layout) (x : Float) : List Char :=
  match Binary64.ofFloat? x with
  | some b => (if b.negative then ['-'] else []) ++ L.decimal b.shortest
  | none =>
      if x.isNaN then L.notANumber.toList
      else if x < 0 then '-' :: L.infinity.toList
      else L.infinity.toList

end Layout

end Annealing
