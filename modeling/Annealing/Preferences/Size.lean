import Annealing.Fault
import Annealing.Number.Binary64
import Annealing.Value.Arithmetic

/-!
# Preferences — how large they may be

An array is refused when its octets cannot be counted with a sign in 64 bits, or when they are more
than `memory` holds.

* `Preferences.checkTable` says when a table's preferences are too large, and
  `Preferences.checkParity` when preferences by parity are: these need the list of members and a
  matrix of comparisons beforehand.
* `Preferences.countBelow` is the count of rows below a number.
-/

namespace Annealing

/-- The octets that an array may have. -/
def memory : Nat := 2 ^ 36

/-- Refuses an array that needs too much memory. -/
def checkArray (shape : List Nat) (cells : CellKind) : Except Fault Unit :=
  let octets := shape.foldl (· * ·) cells.octets
  if 2 ^ 63 ≤ octets then .error .tooManyBytes
  else if memory < octets then .error (.outOfMemory shape cells octets)
  else .ok ()

namespace Preferences

/-- Refuses preferences from a table that have too many rows. -/
def checkTable (size : Nat) : Except Fault Unit :=
  if 2 ^ 63 ≤ size then .error .tooManyRows else checkArray [size, size] .double

/-- Refuses preferences by parity that have too many rows; the members are `cells`. -/
def checkParity (size : Nat) (cells : CellKind) : Except Fault Unit := do
  checkArray [size] cells
  checkArray [size, size] .truth
  checkArray [size, size] .double

/-- The number of integers from zero to below a double, counted with a sign in 64 bits: `2 ^ 63` is
the first count that turns negative, and a negative count is none. -/
def countBelowDouble (x : Float) : Except Fault Nat :=
  match Binary64.ofFloat? x with
  | some b =>
      let n := b.ceiling
      if n < -(2 ^ 63) ∨ 2 ^ 63 < n then .error .tooManyCells
      else .ok (if n = 2 ^ 63 then 0 else n.toNat)
  | none => .error (if x.isNaN then .lengthUndefined else .tooManyCells)

/-- The number of rows of preferences by parity below a number, which is brought to a double. -/
def countBelow : Number → Except Fault Nat
  | .int n => do
      let size ← countBelowDouble (Binary64.ofInt n)
      checkParity size .integer
      return size
  | .float x => do
      let size ← countBelowDouble x
      checkParity size .double
      return size

end Preferences

end Annealing
