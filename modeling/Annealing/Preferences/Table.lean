import Annealing.Preferences
import Annealing.Preferences.Size
import Annealing.Table.Basic

/-!
# Preferences — preferences in tables

A table with the columns `a`, `b` and `score` holds preferences: every row gives a score to a pair
of members, in both orders.  A later row replaces an earlier one of the same pair.  The scores are
put at `(a, b)` row by row first, and then at `(b, a)` row by row; pairs without a row score zero.

* `Preferences.ofPairs` is the matrix of a list of pairs with their scores.
* `Preferences.ofTable` is the matrix that a table holds, large enough for a greatest member.
-/

namespace Annealing.Preferences

/-- A pair of members and its score. -/
structure Pair where
  first : Nat
  second : Nat
  score : Float

/-- The matrix of pairs with their scores. -/
def ofPairs (size : Nat) (all : List Pair) : Preferences :=
  let forth := all.foldl (fun p r => p.put r.first r.second r.score) (zero size size)
  all.foldl (fun p r => p.put r.second r.first r.score) forth

/-- Puts pairs and scores together. -/
def pairUp (first second : List Int) (scores : List Float) : List Pair :=
  ((first.zip second).zip scores).map fun r => ⟨r.1.1.toNat, r.1.2.toNat, r.2⟩

/-- The matrix that a table holds, with rows for the members up to `greatest` at least. -/
def ofTable (t : Table) (greatest : Value) : Except Fault Preferences :=
  match t.cells? "a", t.cells? "b", t.cells? "score" with
  | some a, some b, some score => do
      let first ← a.mapM Table.Cell.rowNumber
      let second ← b.mapM Table.Cell.rowNumber
      let scores ← score.mapM Table.Cell.score
      if (first ++ second).any (· < 0) then throw .negativePreferenceMember
      let size := ((first ++ second).foldl max (← greatest.toInt) + 1).toNat
      checkTable size
      return ofPairs size (pairUp first second scores)
  | _, _, _ => .error .lacksPreferenceColumns

end Annealing.Preferences
