import Annealing.Grouping.Basic
import Annealing.Preferences
import Annealing.Preferences.Size
import Annealing.Value.Arithmetic
import Annealing.Value.Shape

/-!
# Grouping — what a grouping and its preferences must be like

The members of a valid grouping are not negative, no member stands twice, and all groups have the
same size.  Valid preferences are a square matrix of finite numbers with a row for every member.

* `Grouping.validate` and `Preferences.validate` check this and name the first thing that is wrong.
* `Preferences.default` are the preferences by parity for a greatest member.
-/

namespace Annealing

namespace Grouping

/-- Whether no item of a list stands twice. -/
def isDistinct (members : List Int) : Bool :=
  let sorted := members.mergeSort fun a b => decide (a ≤ b)
  (sorted.zip (sorted.drop 1)).all fun p => p.1 != p.2

/-- The sizes that occur, each once, in ascending order. -/
def occurringSizes (sizes : List Nat) : List Nat :=
  (sizes.mergeSort fun a b => decide (a ≤ b)).eraseReps

/-- Checks the members and the sizes of the groups of a grouping. -/
def check (members : List Int) (sizes : List Nat) : Except Fault Unit := do
  if members.any (· < 0) then throw .negativeMember
  if !isDistinct members then throw .repeatedMember
  let sizes := occurringSizes sizes
  if 1 < sizes.length then throw (.unevenSizes sizes)

/-- Checks a grouping of integers. -/
def validate (g : Grouping Int) : Except Fault Unit :=
  check g.members (g.map List.length)

/-- Checks a grouping that a value holds. -/
def validateValue (v : Value) : Except Fault Unit := do
  let members ← membersOfValue v
  let groups ← (← v.items).mapM Value.items
  check members (groups.map List.length)

end Grouping

namespace Preferences

/-- Checks that preferences are square, cover the members and are finite. -/
def validate (p : Preferences) (members : List Int) : Except Fault Unit := do
  if !p.isSquare then throw .notSquare
  if members.any (· ≥ p.rows) then throw .notCovering
  if !p.isFinite then throw .notFinite

/-- Whether a value is a finite number; refuses values that are no numbers of 64 bits. -/
def finiteValue : Value → Except Fault Bool
  | .bool _ => .ok true
  | .int n => if -(2 ^ 63) ≤ n ∧ n < 2 ^ 64 then .ok true else .error .notNumeric
  | .float x => .ok x.isFinite
  | _ => .error .notNumeric

/-- Checks preferences that a value holds against a grouping that a value holds. -/
def validateValue (p groups : Value) : Except Fault Unit := do
  match ← p.shape with
  | [rows, columns] =>
      if rows ≠ columns then throw .notSquare
      if (← Grouping.membersOfValue groups).any (· ≥ rows) then throw .notCovering
      let finite ← p.scalars.mapM finiteValue
      if !finite.all id then throw .notFinite
  | _ => throw .notSquare

/-- The preferences by parity for members up to a greatest one. -/
def upTo (greatest : Value) : Except Fault Preferences := do
  return parity (← countBelow (← greatest.succ))

/-- The preferences by parity for a grouping that a value holds; `greatest` replaces its greatest
member unless it is null. -/
def default (groups greatest : Value) : Except Fault Preferences := do
  let members ← Grouping.membersOfValue groups
  match greatest with
  | .null => upTo (.int (Grouping.greatest members))
  | v => upTo v

end Preferences

end Annealing
