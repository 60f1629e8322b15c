import Annealing.Value.Convert

/-!
# Value — lists as arrays

Lists of lists form an array when all lists of one depth have the same length.  The *shape* of a
value is the list of these lengths, from the outside in; a value that is no list is an array without
axes.

The shape is found by a walk through the value, item by item and depth first.  The way down to the
first value that is no list, or to the first empty list, sets the lengths; all that follows has to
agree.  Where it does not, the axes end and the value is ragged, but the walk goes on and may find
fewer axes still.  An array has 64 axes at most.

* `Value.shape` is the shape, refused if the value is ragged or too deep.
* `Value.scalars` are the values inside all lists.
-/

namespace Annealing

/-- What a walk through a value knows about its shape. -/
structure Survey where
  /-- How many axes there can be. -/
  axes : Nat
  /-- The lengths along the axes, from the outside in. -/
  lengths : List Nat
  /-- Whether the way down to the first value has come to its end. -/
  settled : Bool
  ragged : Bool
deriving DecidableEq, Repr

namespace Survey

/-- The greatest count of axes. -/
def limit : Nat := 64

/-- The survey before the walk. -/
def start : Survey := ⟨limit, [], false, false⟩

/-- A value that is no list, inside that many lists. -/
def scalar (s : Survey) (depth : Nat) : Survey :=
  if s.axes < depth then { s with settled := true, ragged := true }
  else if depth < s.axes then { s with
    axes := depth, settled := true, ragged := s.ragged || s.settled }
  else { s with settled := true }

/-- A list that has no axis left. -/
def tooDeep (s : Survey) (depth : Nat) : Survey :=
  if depth = s.axes then { s.scalar depth with ragged := true } else { s with ragged := true }

/-- Whether a list of this length cannot stand inside that many lists. -/
def clashes (s : Survey) (depth length : Nat) : Bool :=
  s.settled && s.lengths[depth]? != some length

/-- The survey with the length of a list that stands inside that many lists. -/
def measured (s : Survey) (depth length : Nat) : Survey :=
  if s.settled then s else { s with lengths := s.lengths.take depth ++ [length] }

/-- The survey after an empty list that stands inside that many lists: there are no further axes. -/
def empty (s : Survey) (depth : Nat) : Survey :=
  { s with axes := depth + 1, settled := true }

end Survey

namespace Value

mutual

/-- The survey after a value that stands inside that many lists. -/
def survey (s : Survey) (depth : Nat) : Value → Survey
  | .list items =>
      if s.axes ≤ depth then s.tooDeep depth
      else if s.clashes depth items.length then { s with axes := depth, ragged := true }
      else if items.isEmpty then (s.measured depth 0).empty depth
      else surveyOf (s.measured depth items.length) (depth + 1) items
  | _ => s.scalar depth

/-- The survey after the items of a list. -/
def surveyOf (s : Survey) (depth : Nat) : List Value → Survey
  | [] => s
  | v :: rest => surveyOf (survey s depth v) depth rest

end

/-- The lengths of a value along its axes. -/
def shape (v : Value) : Except Fault (List Nat) :=
  let s := survey .start 0 v
  let lengths := s.lengths.take s.axes
  if !s.ragged then .ok lengths
  else if s.axes = Survey.limit then .error .tooManyAxes
  else .error (.ragged lengths)

mutual

/-- The values inside all lists, from left to right. -/
def scalars : Value → List Value
  | .list items => scalarsOf items
  | v => [v]

/-- The values inside all lists of a list. -/
def scalarsOf : List Value → List Value
  | [] => []
  | v :: rest => v.scalars ++ scalarsOf rest

end

/-- Conversion to an integer of 64 bits. -/
def toWord (v : Value) : Except Fault Int := do
  let n ← v.toInt
  if -(2 ^ 63) ≤ n ∧ n < 2 ^ 63 then return n else throw .tooLargeForWord

end Value

end Annealing
