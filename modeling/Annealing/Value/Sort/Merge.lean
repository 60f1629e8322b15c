import Annealing.Value.Sort.Search

/-!
# Value — merging two sorted runs

Two neighboring runs are merged by taking items from their ends: from the fronts if the left run is
the shorter one, from the backs otherwise.  One of the two runs, the left one in the first case and
the right one in the second, is the *steady* one: it wins where items are equal, and its last item
is known to come at the very end.  The other is the *passing* one.

As long as no run wins several times in succession, ends are compared one by one.  Then whole
stretches are taken (`Merging.stretches`), whose lengths are found by `Sorting.search`, until these
get short.  How many successive wins it takes is the *patience*, which falls while stretches pay off
and grows when they do not, and is handed on from merge to merge.

* `Sorting.merge` merges two runs.
-/

namespace Annealing.Sorting

variable {α : Type}

/-- Two runs on the way to be one. -/
structure Merging (α : Type) where
  /-- Whether items are taken from the fronts. -/
  forward : Bool
  /-- The items taken so far, in the order in which they were taken. -/
  taken : Array α
  steady : Array α
  passing : Array α
  patience : Nat

namespace Merging

/-- A step of merging, which may end it with the merged run and the patience. -/
abbrev Step (α : Type) := ExceptT (Array α × Nat) (Except Fault)

/-- The first `k` items of a run to be taken, in the order of taking, and the others. -/
def splitEnd (forward : Bool) (run : Array α) (k : Nat) : Array α × Array α :=
  if forward then (run.extract 0 k, run.extract k run.size)
  else ((run.extract (run.size - k) run.size).reverse, run.extract 0 (run.size - k))

/-- The next item of a run to be taken. -/
def next? (forward : Bool) (run : Array α) : Option α :=
  if forward then run[0]? else run.back?

/-- Two runs in the order in which they stand, the one that is taken first given first. -/
def inOrder (forward : Bool) (first second : Array α) : Array α :=
  if forward then first ++ second else second ++ first

/-- Ends the merging when a run is used up, or when the steady run has one item left, which comes at
the end. -/
def settle (m : Merging α) : Step α (Merging α) :=
  let taken := if m.forward then m.taken else m.taken.reverse
  if m.passing.isEmpty ∨ m.steady.isEmpty ∨ m.steady.size = 1 then
    throw (inOrder m.forward taken (inOrder m.forward m.passing m.steady), m.patience)
  else return m

/-- Takes the next `k` items of the steady run. -/
def takeSteady (m : Merging α) (k : Nat) : Merging α :=
  let (items, steady) := splitEnd m.forward m.steady k
  { m with taken := m.taken ++ items, steady }

/-- Takes the next `k` items of the passing run. -/
def takePassing (m : Merging α) (k : Nat) : Merging α :=
  let (items, passing) := splitEnd m.forward m.passing k
  { m with taken := m.taken ++ items, passing }

variable (less : α → α → Except Fault Bool)

/-- Asks whether the passing run is to give the next item. -/
def passes (m : Merging α) : Except Fault Bool :=
  match next? m.forward m.passing, next? m.forward m.steady with
  | some p, some s => if m.forward then less p s else less s p
  | _, _ => .ok false

/-- Takes items one by one until a run has won several times in succession.  `steadyWins` and
`passingWins` are the wins in succession so far. -/
def oneByOne : (fuel steadyWins passingWins : Nat) → Merging α → Step α (Merging α)
  | 0, _, _, m => return m
  | fuel + 1, steadyWins, passingWins, m => do
      if ← (m.passes less : Except Fault Bool) then
        let m ← (m.takePassing 1).settle
        if m.patience ≤ passingWins + 1 then return m else oneByOne fuel 0 (passingWins + 1) m
      else
        let m ← (m.takeSteady 1).settle
        if m.patience ≤ steadyWins + 1 then return m else oneByOne fuel (steadyWins + 1) 0 m

/-- How many items of a run come before an item of the other.  An item of the left run comes before
an equal one. -/
def stretch (isLeft forward : Bool) (run : Array α) (key : α) : Except Fault Nat := do
  let below := fun x => if isLeft then do return !(← less key x) else less x key
  if forward then search below run 0 else return run.size - (← search below run (run.size - 1))

/-- Takes a stretch of the steady run and then one item of the passing one: the length of the
stretch. -/
def steadyStretch (m : Merging α) : Step α (Merging α × Nat) := do
  match next? m.forward m.passing with
  | none => return (m, 0)
  | some key => do
      let k ← (stretch less m.forward m.forward m.steady key : Except Fault Nat)
      let m ← if k = 0 then pure m else (m.takeSteady k).settle
      return (← (m.takePassing 1).settle, k)

/-- Takes a stretch of the passing run and then one item of the steady one: the length of the
stretch. -/
def passingStretch (m : Merging α) : Step α (Merging α × Nat) := do
  match next? m.forward m.steady with
  | none => return (m, 0)
  | some key => do
      let k ← (stretch less (!m.forward) m.forward m.passing key : Except Fault Nat)
      let m ← if k = 0 then pure m else (m.takePassing k).settle
      return (← (m.takeSteady 1).settle, k)

/-- The length from which on a stretch pays off, and the patience at first. -/
def leastStretch : Nat := 7

/-- Takes stretches of both runs in turn, those of the left run first, until both are short. -/
def stretches : (fuel : Nat) → Merging α → Step α (Merging α)
  | 0, m => return m
  | fuel + 1, m => do
      let m := { m with patience := if 1 < m.patience then m.patience - 1 else m.patience }
      let (m, first) ← if m.forward then m.steadyStretch less else m.passingStretch less
      let (m, second) ← if m.forward then m.passingStretch less else m.steadyStretch less
      if leastStretch ≤ first ∨ leastStretch ≤ second then stretches fuel m
      else return { m with patience := m.patience + 1 }

/-- Takes items one by one and in stretches in turn. -/
def proceed : (fuel : Nat) → Merging α → Step α (Merging α)
  | 0, m => return m
  | fuel + 1, m => do
      let items := m.steady.size + m.passing.size + 1
      let m ← m.oneByOne less items 0 0
      proceed fuel (← { m with patience := m.patience + 1 }.stretches less items)

end Merging

/-- The one run of two that overlap, and the patience afterwards.  The first item of the right run
is known to come first of all, and the last item of the left run last. -/
def mergeOverlap (less : α → α → Except Fault Bool) (left right : Array α) (patience : Nat) :
    Except Fault (Array α × Nat) := do
  let forward : Bool := left.size ≤ right.size
  let m : Merging α :=
    { forward, taken := #[], patience
      steady := if forward then left else right
      passing := if forward then right else left }
  let merging : Merging.Step α (Merging α) := do
    Merging.proceed less (left.size + right.size) (← (m.takePassing 1).settle)
  match ← merging.run with
  | .ok m => return (Merging.inOrder true left right, m.patience)
  | .error merged => return merged

/-- The one run of two neighbors, and the patience afterwards.  What of the left run comes before
all of the right one stays where it is, and so does what of the right run comes after all of the
left one. -/
def merge (less : α → α → Except Fault Bool) (left right : Array α) (patience : Nat) :
    Except Fault (Array α × Nat) := do
  match right[0]?, left.back? with
  | some least, some greatest => do
      let before ← search (fun x => do return !(← less least x)) left 0
      let inner := left.extract before left.size
      if inner.isEmpty then return (left ++ right, patience)
      let within ← search (fun x => less x greatest) right (right.size - 1)
      if within = 0 then return (left ++ right, patience)
      let (merged, patience) ← mergeOverlap less inner (right.extract 0 within) patience
      return (left.extract 0 before ++ merged ++ right.extract within right.size, patience)
  | _, _ => return (left ++ right, patience)

end Annealing.Sorting
