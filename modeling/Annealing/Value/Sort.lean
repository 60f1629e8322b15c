import Annealing.Value.Sort.Merge

/-!
# Value — sorting by a comparison that may refuse

Not every two values have an order, so a sort of arbitrary values can fail, and which pair it fails
at shows which comparisons were made.  A number that is none is below nothing and nothing is below
it, so where it ends up shows them too.  `Sorting.sort` fixes the comparisons.  It divides the items
into runs that ascend or strictly descend, turns descending ones round, and fills up short ones by
putting further items into their places by halving.  Neighboring runs are merged according to their
*powers*: the power of a border says at what depth it lies when the whole is halved again and again,
and deeper borders go first.

On items that have an order the result is the stable ascending one.
-/

namespace Annealing.Sorting

variable {α : Type} (less : α → α → Except Fault Bool)

/-! ### Runs -/

/-- The items at the front that continue a run: each is below its predecessor when `down`, none is
when not.  The rest follows. -/
def continueRun (down : Bool) : α → List α → Except Fault (List α × List α)
  | _, [] => .ok ([], [])
  | previous, x :: rest => do
      if (← less x previous) == down then
        let (run, more) ← continueRun down x rest
        return (x :: run, more)
      else return ([], x :: rest)

/-- The longest run at the front, in ascending order, and the rest. -/
def firstRun : List α → Except Fault (List α × List α)
  | [] => .ok ([], [])
  | [x] => .ok ([x], [])
  | x :: y :: rest => do
      let down ← less y x
      let (run, more) ← continueRun less down y rest
      return (if down then (x :: y :: run).reverse else x :: y :: run, more)

/-- Puts an item into its place in an ascending array, behind all that it is not below. -/
def insertPlaced (sorted : Array α) (pivot : α) : Except Fault (Array α) := do
  let below := asked (fun x => do return !(← less pivot x)) sorted
  let i ← halve below (sorted.size + 1) 0 sorted.size
  return (sorted.extract 0 i).push pivot ++ sorted.extract i sorted.size

/-- The least length of a run that is not the last: between 32 and 64 for long lists, such that the
number of runs is a power of two or a little less. -/
def leastRun : (fuel n rounding : Nat) → Nat
  | 0, n, rounding => n + rounding
  | fuel + 1, n, rounding =>
      if n < 64 then n + rounding else leastRun fuel (n / 2) (max rounding (n % 2))

/-- The run at the front, filled up to a length as far as there are items, and the rest. -/
def nextRun (least : Nat) (items : List α) : Except Fault (Array α × List α) := do
  let (run, rest) ← firstRun less items
  let missing := least - run.length
  return (← (rest.take missing).foldlM (insertPlaced less) run.toArray, rest.drop missing)

/-! ### Merging runs -/

/-- A run that waits to be merged: its place, its items, and the power of the border behind it. -/
structure Pending (α : Type) where
  place : Nat
  items : Array α
  power : Nat

/-- The number of binary digits up to the first in which `a / n` and `b / n` differ. -/
def power (n : Nat) : (fuel a b : Nat) → Nat
  | 0, _, _ => 1
  | fuel + 1, a, b =>
      if n ≤ a then power n fuel (2 * (a - n)) (2 * (b - n)) + 1
      else if n ≤ b then 1
      else power n fuel (2 * a) (2 * b) + 1

/-- The power of the border between a run and the next, of a given length, in a list of `n` items:
the middles of the two runs are compared, doubled to be whole. -/
def borderPower (n : Nat) (run : Pending α) (length : Nat) : Nat :=
  let middle := 2 * run.place + run.items.size
  power n (2 * n.log2 + 8) middle (middle + run.items.size + length)

/-- Merges the last two runs, which come first, as long as the border between them lies deeper than
a power. -/
def mergeDeeper (power : Nat) :
    (waiting : List (Pending α)) → (last : Pending α) → (patience : Nat) →
    Except Fault (List (Pending α) × Nat)
  | [], last, patience => .ok ([{ last with power }], patience)
  | before :: others, last, patience => do
      if power < before.power then
        let (items, patience) ← merge less before.items last.items patience
        mergeDeeper power others { before with items } patience
      else return ({ last with power } :: before :: others, patience)

/-- Divides items into runs and merges them as deeper borders turn up; the runs that still wait, the
last one first. -/
def takeRuns (n : Nat) :
    (fuel place : Nat) → List α → (waiting : List (Pending α)) → (patience : Nat) →
    Except Fault (List (Pending α) × Nat)
  | 0, _, _, waiting, patience => .ok (waiting, patience)
  | _ + 1, _, [], waiting, patience => .ok (waiting, patience)
  | fuel + 1, place, items, waiting, patience => do
      let (run, rest) ← nextRun less (leastRun n n 0) items
      let (waiting, patience) ← match waiting with
        | [] => pure ([], patience)
        | last :: others => mergeDeeper less (borderPower n last run.size) others last patience
      takeRuns n fuel (place + run.size) rest (⟨place, run, 0⟩ :: waiting) patience

/-- Merges the runs that wait, the last one first: the last two, or the two before the last if the
third last is shorter than the last. -/
def mergeAll : (fuel : Nat) → List (Pending α) → (patience : Nat) → Except Fault (Array α)
  | 0, waiting, _ => .ok ((waiting.reverse.map Pending.items).foldl (· ++ ·) #[])
  | _ + 1, [], _ => .ok #[]
  | _ + 1, [run], _ => .ok run.items
  | fuel + 1, last :: middle :: others, patience => do
      match others with
      | first :: rest =>
          if first.items.size < last.items.size then
            let (items, patience) ← merge less first.items middle.items patience
            mergeAll fuel (last :: { first with items } :: rest) patience
          else
            let (items, patience) ← merge less middle.items last.items patience
            mergeAll fuel ({ middle with items } :: others) patience
      | [] => do
          let (items, patience) ← merge less middle.items last.items patience
          mergeAll fuel [{ middle with items }] patience

/-- The items in ascending order, equal ones in the order in which they came. -/
def sort (items : List α) : Except Fault (List α) := do
  let n := items.length
  let (waiting, patience) ← takeRuns less n (n + 1) 0 items [] Merging.leastStretch
  return (← mergeAll less (waiting.length + 1) waiting patience).toList

end Annealing.Sorting
