import Annealing.Search.Script
import Annealing.Proofs.Effect

/-!
# Search — the calls of a script

A script counts the calls of its three functions and may refuse one of them (`Script.failing`).
This module says once what each function does (`Script.copy_eq`, `Script.neighbor_eq`,
`Script.cost_eq`): it counts the call, refuses it if it is the one that fails, and otherwise always
answers.

* `Journal.Called`: an answered call is counted under its role, and parents are only added to.
* `Script.FirstHolds`: whether a call is answered or not, the first cell, which is that of the
  initial state, holds what it held, and states other than the initial one have other cells.
* `Script.failAt`: the script with a call that fails.
-/

namespace Annealing

namespace Journal

/-- The number of calls of a function. -/
def calls (j : Journal) : Role → Nat
  | .copy => j.copyCalls
  | .neighbor => j.neighborCalls
  | .cost => j.costCalls

/-- The journal with one call more of a function. -/
def count (j : Journal) : Role → Journal
  | .copy => { j with copyCalls := j.copyCalls + 1 }
  | .neighbor => { j with neighborCalls := j.neighborCalls + 1 }
  | .cost => { j with costCalls := j.costCalls + 1 }

@[simp] theorem count_cells (j : Journal) (role : Role) : (j.count role).cells = j.cells := by
  cases role <;> rfl

@[simp] theorem count_parents (j : Journal) (role : Role) : (j.count role).parents = j.parents := by
  cases role <;> rfl

/-- What an answered call of a function leaves of the journal. -/
structure Called (role : Role) (j j' : Journal) : Prop where
  calls : ∀ r, j'.calls r = j.calls r + if r = role then 1 else 0
  parents : j.parents.toList <+: j'.parents.toList

/-- No fewer calls than in an earlier journal, and no other parents before the later ones. -/
structure Extends (j j' : Journal) : Prop where
  calls : ∀ r, j.calls r ≤ j'.calls r
  parents : j.parents.toList <+: j'.parents.toList

theorem Extends.trans {j j₁ j₂ : Journal} (h : Extends j j₁) (h' : Extends j₁ j₂) : Extends j j₂ :=
  ⟨fun r => Nat.le_trans (h.calls r) (h'.calls r), h.parents.trans h'.parents⟩

theorem Called.toExtends {role : Role} {j j' : Journal} (called : Called role j j') :
    Extends j j' where
  calls r := by
    rw [called.calls r]
    exact Nat.le_add_right _ _
  parents := called.parents

end Journal

namespace Script

/-- The content of a cell, zero if there is none. -/
def held (j : Journal) (cell : Nat) : Int := j.cells.getD cell 0

/-- The cells after a neighbor of a cell was made, and the cell of the neighbor. -/
def moved (s : Script) (j : Journal) (cell : Nat) : Array Int × Nat :=
  match s.moving with
  | .sequence => (j.cells.push (j.neighborCalls + 1 : Nat), j.cells.size)
  | .walk => (j.cells.push (held j cell + cyclic s.moves j.neighborCalls 1), j.cells.size)
  | .inPlace => (j.cells.setIfInBounds cell (held j cell + cyclic s.moves j.neighborCalls 1), cell)

/-! ### What the functions do -/

section

variable (s : Script) (j : Journal) (cell : Nat)

/-- What follows a check is done unless the call is the one that fails. -/
theorem check_bind {α : Type} (role : Role) (call : Nat) (rest : Effect Journal α) :
    (s.check role call >>= fun _ => rest) j =
      if s.failing = some (role, call) then .error (.refused role call) j else rest j := by
  by_cases h : s.failing = some (role, call)
  · simp only [bind, EStateM.bind, check, if_pos h]
    rfl
  · simp only [bind, EStateM.bind, check, if_neg h]
    rfl

theorem copy_eq : s.copy cell j =
    if s.failing = some (.copy, j.calls .copy + 1) then
      .error (.refused .copy (j.calls .copy + 1)) (j.count .copy)
    else .ok j.cells.size
      { j.count .copy with
        copied := j.copied.push (held j cell), cells := j.cells.push (held j cell) } := by
  have checked : s.copy cell j = (s.check .copy (j.calls .copy + 1) >>= fun _ => (do
      let x ← content cell
      modify fun j => { j with copied := j.copied.push x }
      newCell x)) (j.count .copy) := rfl
  rw [checked, check_bind]
  rfl

theorem neighbor_eq : s.neighbor cell j =
    if s.failing = some (.neighbor, j.calls .neighbor + 1) then
      .error (.refused .neighbor (j.calls .neighbor + 1)) (j.count .neighbor)
    else .ok (s.moved j cell).2
      { j.count .neighbor with
        parents := j.parents.push (held j cell), cells := (s.moved j cell).1 } := by
  have checked : s.neighbor cell j = (s.check .neighbor (j.calls .neighbor + 1) >>= fun _ => (do
      let x ← content cell
      modify fun j => { j with parents := j.parents.push x }
      let move := cyclic s.moves (((j.neighborCalls + 1 : Nat) : Int) - 1) 1
      match s.moving with
      | .sequence => newCell (j.neighborCalls + 1 : Nat)
      | .walk => newCell (x + move)
      | .inPlace =>
          modify fun j => { j with cells := j.cells.setIfInBounds cell (x + move) }
          return cell)) (j.count .neighbor) := rfl
  have place : ((j.neighborCalls + 1 : Nat) : Int) - 1 = j.neighborCalls := by omega
  rw [checked, check_bind, place, moved]
  cases s.moving <;> rfl

theorem cost_eq : s.cost cell j =
    if s.failing = some (.cost, j.calls .cost + 1) then
      .error (.refused .cost (j.calls .cost + 1)) (j.count .cost)
    else .ok (cyclic s.costs (held j cell) .null) (j.count .cost) := by
  have checked : s.cost cell j = (s.check .cost (j.calls .cost + 1) >>= fun _ => (do
      return cyclic s.costs (← content cell) .null)) (j.count .cost) := rfl
  rw [checked, check_bind]
  rfl

end

/-! ### Calls that are answered -/

variable {s : Script} {j j' : Journal} {cell cell' : Nat}

theorem copy_called (h : s.copy cell j = .ok cell' j') : Journal.Called .copy j j' := by
  rw [copy_eq] at h
  split at h
  · cases h
  · cases h
    exact ⟨fun r => by cases r <;> rfl, List.prefix_rfl⟩

theorem neighbor_called (h : s.neighbor cell j = .ok cell' j') : Journal.Called .neighbor j j' := by
  rw [neighbor_eq] at h
  split at h
  · cases h
  · cases h
    refine ⟨fun r => by cases r <;> rfl, ?_⟩
    rw [Array.toList_push]
    exact List.prefix_append _ _

theorem cost_called {k : Value} (h : s.cost cell j = .ok k j') : Journal.Called .cost j j' := by
  rw [cost_eq] at h
  split at h
  · cases h
  · cases h
    exact ⟨fun r => by cases r <;> rfl, List.prefix_rfl⟩

theorem draw_ok {u : Float} (h : s.draw j = .ok u j') : ∃ n, j' = { j with draws := n } := by
  cases h
  exact ⟨_, rfl⟩

/-! ### The first cell -/

section

variable (s : Script) {cell : Nat} {x : Int}

/-- The first cell holds a number. -/
def FirstHolds (x : Int) (j : Journal) : Prop := j.cells[0]? = some x

theorem push_first {cells : Array Int} (hx : cells[0]? = some x) (y : Int) :
    (cells.push y)[0]? = some x ∧ cells.size ≠ 0 := by
  have hlt := (Array.getElem?_eq_some_iff.mp hx).1
  exact ⟨by rw [Array.getElem?_push, if_neg (Nat.ne_of_lt hlt), hx], Nat.ne_of_gt hlt⟩

/-- The cell of a copy is another than the first. -/
theorem copy_preserves (cell : Nat) : Effect.Preserves (FirstHolds x) (s.copy cell) (· ≠ 0) := by
  intro j hx
  rw [copy_eq]
  split
  · exact .inr ⟨_, _, rfl, hx⟩
  · exact .inl ⟨_, _, rfl, push_first hx _⟩

/-- The cell of a neighbor of another cell than the first is another than the first. -/
theorem neighbor_preserves (other : cell ≠ 0) :
    Effect.Preserves (FirstHolds x) (s.neighbor cell) (· ≠ 0) := by
  intro j hx
  rw [neighbor_eq]
  split
  · exact .inr ⟨_, _, rfl, by rw [FirstHolds, Journal.count_cells]; exact hx⟩
  · refine .inl ⟨_, _, rfl, ?_⟩
    change (s.moved j cell).1[0]? = some x ∧ (s.moved j cell).2 ≠ 0
    unfold moved
    cases s.moving with
    | sequence | walk => exact push_first hx _
    | inPlace => exact ⟨(Array.getElem?_setIfInBounds_ne other).trans hx, other⟩

theorem cost_preserves (cell : Nat) : Effect.Preserves (FirstHolds x) (s.cost cell) fun _ =>
    True := by
  intro j hx
  rw [cost_eq]
  split
  · exact .inr ⟨_, _, rfl, hx⟩
  · exact .inl ⟨_, _, rfl, hx, trivial⟩

theorem draw_preserves : Effect.Preserves (FirstHolds x) s.draw fun _ => True :=
  fun _ hx => .inl ⟨_, _, rfl, hx, trivial⟩

end

/-! ### A call that fails -/

/-- The script in which a call of a function fails. -/
def failAt (s : Script) (role : Role) (call : Nat) : Script :=
  { s with failing := some (role, call) }

theorem failing_failAt_iff {role r : Role} {k call : Nat} :
    (s.failAt role k).failing = some (r, call) ↔ role = r ∧ k = call := by
  simp [failAt]

end Script

end Annealing
