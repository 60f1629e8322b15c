import Annealing.Grouping.Cost
import Annealing.Grouping.Swap
import Annealing.Search

/-!
# Grouping — searching for a good grouping

The search for a good grouping has groupings as its states, swaps as its moves and the grouping cost
as its cost.  One generator serves the swaps and the acceptance.

`Grouping.search` is the search among groupings of integers.  `Grouping.searchValues` takes an
initial grouping as it comes from outside, and members of any kind that can be converted.
-/

namespace Annealing.Grouping

/-- The search for a grouping of low cost. -/
def search (p : Preferences) (options : Options) (logging : Bool) :
    Search Generator (Grouping Int) Float where
  copy g := pure g
  neighbor := neighbor Generator.draws
  cost g := Effect.ofExcept (cost p g)
  scale := .doubles
  draw := Effect.ofStep Generator.uniform
  options := options
  logging := logging

/-- The search for a grouping of low cost among groupings that values hold. -/
def searchValues (p : Preferences) (options : Options) (logging : Bool) :
    Search Generator Value Float where
  copy v := do return toValue (← Effect.ofExcept (ofValue v))
  neighbor v := do
    let g ← Effect.ofExcept (ofValue v)
    return toValue (← neighbor Generator.draws g)
  cost v := Effect.ofExcept (costOfValue p v)
  scale := .doubles
  draw := Effect.ofStep Generator.uniform
  options := options
  logging := logging

/-- The best grouping found from an initial one, in the world of a generator.  Nothing is drawn
before the options are read. -/
def annealValues (p : Preferences) (given : Value) (initial : Value) :
    Effect (Progress Generator) Value := do
  let options ← Effect.ofExcept (Options.ofValue given)
  return (← (searchValues p options true).run initial).best

end Annealing.Grouping
