import Annealing.Fault
import Std.Data.HashMap

/-!
# Preferences — how members like each other

Preferences are a matrix of doubles whose rows and columns are numbered by members: the entry at
`(a, b)` says how much `a` and `b` like to be in one group.  A matrix is the ground it starts from
and the entries that have been put since, so a large matrix with few entries of its own is small.

* `Preferences.get?` reads an entry and `Preferences.put` replaces one; a place outside the matrix
  has no entry and cannot be replaced (`get?_put`).
* `Preferences.parity` are the preferences used when none are given: members of the same parity like
  each other.
* `Preferences.written` lists the entries that are not zero.
-/

namespace Annealing

/-- What the places of a matrix hold before anything is put there. -/
inductive Ground where
  | zero
  | parity
  | cells (rows : Array (Array Float))

/-- What a place holds: by parity, 2 where row and column have the same parity, and 0 elsewhere. -/
def Ground.entry : Ground → Nat → Nat → Float
  | .zero, _, _ => 0
  | .parity, a, b => if a % 2 = b % 2 then 2 else 0
  | .cells rows, a, b => (rows.getD a #[]).getD b 0

/-- A matrix of preferences. -/
structure Preferences where
  rows : Nat
  columns : Nat
  ground : Ground
  /-- The entries put so far, by their places. -/
  changes : Std.HashMap (Nat × Nat) Float

namespace Preferences

/-- The matrix of a ground with nothing put on it. -/
def plain (rows columns : Nat) (ground : Ground) : Preferences where
  rows := rows
  columns := columns
  ground := ground
  changes := ∅

/-- The matrix with these rows, as wide as the first one. -/
def ofRows (rows : List (List Float)) : Preferences :=
  plain rows.length (rows.headD []).length (.cells (rows.map List.toArray).toArray)

/-- The matrix of zeros. -/
def zero (rows columns : Nat) : Preferences := plain rows columns .zero

/-- The square matrix by parity. -/
def parity (size : Nat) : Preferences := plain size size .parity

/-- The entry at a place. -/
def get? (p : Preferences) (a b : Nat) : Option Float :=
  if a < p.rows ∧ b < p.columns then some (p.changes.getD (a, b) (p.ground.entry a b)) else none

/-- The matrix with the entry at a place replaced. -/
def put (p : Preferences) (a b : Nat) (x : Float) : Preferences :=
  if a < p.rows ∧ b < p.columns then { p with changes := p.changes.insert (a, b) x } else p

/-- An entry that was put is read again, and all others stay. -/
theorem get?_put (p : Preferences) (a b : Nat) (x : Float) (c d : Nat) :
    (p.put a b x).get? c d =
      if c < p.rows ∧ d < p.columns ∧ a = c ∧ b = d then some x else p.get? c d := by
  by_cases inside : a < p.rows ∧ b < p.columns
  · by_cases here : a = c ∧ b = d
    · obtain ⟨rfl, rfl⟩ := here
      simp [put, get?, inside]
    · have other : (a, b) ≠ (c, d) := by simpa using here
      simp [put, get?, inside, Std.HashMap.getD_insert, other, here]
  · have same : p.put a b x = p := by simp only [put, if_neg inside]
    rw [same]
    by_cases here : a = c ∧ b = d
    · obtain ⟨rfl, rfl⟩ := here
      simp only [get?, if_neg inside, and_self, and_true]
    · simp [here]

/-- The entry at a place, which must be one of the matrix. -/
def lookup (p : Preferences) (a b : Nat) : Except Fault Float :=
  match p.get? a b with
  | some x => .ok x
  | none => .error (if a < p.rows then .indexOutside b 1 p.columns else .indexOutside a 0 p.rows)

/-- Whether the matrix is square. -/
def isSquare (p : Preferences) : Bool :=
  p.rows == p.columns

/-- The places in rows, from left to right. -/
def places (p : Preferences) : List (Nat × Nat) :=
  (List.range p.rows).flatMap fun a => (List.range p.columns).map fun b => (a, b)

/-- The places that something was put at, row by row. -/
def changed (p : Preferences) : List (Nat × Nat) :=
  p.changes.keys.mergeSort fun s t => decide (s.1 < t.1 ∨ s.1 = t.1 ∧ s.2 ≤ t.2)

/-- Whether all entries are finite.  Zeros and preferences by parity are, so only what was put
counts there. -/
def isFinite (p : Preferences) : Bool :=
  match p.ground with
  | .zero | .parity => p.changes.values.all fun x => x.isFinite
  | .cells _ => p.places.all fun s => (p.get? s.1 s.2).all fun x => x.isFinite

/-- The entries that are not zero, a zero with a sign among them, with their places row by row. -/
def written (p : Preferences) : List (Nat × Nat × Float) :=
  let places := match p.ground with
    | .zero => p.changed
    | _ => p.places
  places.filterMap fun s => do
    let x ← p.get? s.1 s.2
    if x.toBits = 0 then none else some (s.1, s.2, x)

end Preferences

end Annealing
