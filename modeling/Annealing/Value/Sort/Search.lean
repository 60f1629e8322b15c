import Annealing.Fault

/-!
# Value — searching sorted items by leaps

An item is sought among sorted ones from a hint on: in steps that double until they have leapt over
its place, and then by halving what the last leap crossed.  The sought place is told by a question,
whether an item lies *below* it, which may refuse to answer.  On sorted items the place does not
depend on the hint; which items are asked about does.

`Sorting.search` is the place: the number of items below it.
-/

namespace Annealing.Sorting

/-- Doubles a step as long as it stays below a limit and the answer at it is yes: the last step with
a yes, and the first without, or the limit. -/
def leap (ask : Nat → Except Fault Bool) (limit : Nat) :
    (fuel last step : Nat) → Except Fault (Nat × Nat)
  | 0, last, step => .ok (last, min step limit)
  | fuel + 1, last, step => do
      if step < limit then
        if ← ask step then leap ask limit fuel step (2 * step + 1) else return (last, step)
      else return (last, limit)

/-- Halves what lies between `low` and `high`: the first place there that is not below. -/
def halve (below : Nat → Except Fault Bool) : (fuel low high : Nat) → Except Fault Nat
  | 0, _, high => .ok high
  | fuel + 1, low, high => do
      if low < high then
        let middle := low + (high - low) / 2
        if ← below middle then halve below fuel (middle + 1) high else halve below fuel low middle
      else return high

/-- The answer to a question about the item at a place. -/
def asked {α : Type} (below : α → Except Fault Bool) (items : Array α) (place : Nat) :
    Except Fault Bool :=
  match items[place]? with
  | some x => below x
  | none => .ok false

/-- The number of items below the sought place, looked for from the place `hint` on. -/
def search {α : Type} (below : α → Except Fault Bool) (items : Array α) (hint : Nat) :
    Except Fault Nat := do
  let ask := asked below items
  let fuel := items.size + 1
  if ← ask hint then
    let (last, step) ← leap (fun step => ask (hint + step)) (items.size - hint) fuel 0 1
    halve ask fuel (hint + last + 1) (hint + step)
  else
    let (last, step) ← leap (fun step => do return !(← ask (hint - step))) (hint + 1) fuel 0 1
    halve ask fuel (hint + 1 - step) (hint - last)

end Annealing.Sorting
