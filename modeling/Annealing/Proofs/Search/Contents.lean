import Annealing.Search.Script
import Annealing.Proofs.Effect

/-!
# Search — what states hold

States are what a strategy makes of them; what a search returns is one of its copies.  To compare it
with the states that were generated, `holds w s c` says that in the world `w` the state `s` holds
the content `c`.

* `Keeps`: between two worlds, no state comes to hold anything else.
* `Costs`: a state holds a content of a given price.

The states of a script are cells, which hold integers (`Script.holds`).  What its functions do to
the cells is all that contents depend on (`Script.copy_cells`, `Script.neighbor_cells`,
`Script.cost_cells`).
-/

namespace Annealing

variable {ω σ κ γ : Type}

/-- No state of the one world holds anything else in the other. -/
def Keeps (holds : ω → σ → γ → Prop) (w w' : ω) : Prop :=
  ∀ t c, holds w t c → holds w' t c

theorem Keeps.trans {holds : ω → σ → γ → Prop} {w w₁ w₂ : ω} (h₁ : Keeps holds w w₁)
    (h₂ : Keeps holds w₁ w₂) : Keeps holds w w₂ :=
  fun t c h => h₂ t c (h₁ t c h)

/-- A state that holds a content of this price. -/
def Costs (holds : ω → σ → γ → Prop) (price : γ → κ) (w : ω) (x : σ) (k : κ) : Prop :=
  ∃ c, holds w x c ∧ price c = k

/-! ### Scripts -/

namespace Script

variable {s : Script} {j j' : Journal}

/-- A cell that holds an integer. -/
def holds (j : Journal) (cell : Nat) (x : Int) : Prop := j.cells[cell]? = some x

/-- What a script charges for an integer. -/
def price (s : Script) (x : Int) : Value := cyclic s.costs x .null

theorem check_ok {role : Role} {call : Nat} {u : Unit} (h : s.check role call j = .ok u j') :
    j' = j := by
  unfold check at h
  split at h
  · cases h
  · cases h
    rfl

/-! What a call does to the cells, which is all that contents depend on. -/

theorem newCell_cells {x : Int} {cell : Nat} (h : newCell x j = .ok cell j') :
    j'.cells = j.cells.push x ∧ cell = j.cells.size := by
  cases h
  exact ⟨rfl, rfl⟩

/-- A copy is a new cell with what the given one holds. -/
theorem copy_cells {cell cell' : Nat} (h : s.copy cell j = .ok cell' j') :
    j'.cells = j.cells.push (j.cells.getD cell 0) ∧ cell' = j.cells.size := by
  obtain ⟨_, _, h₁, h⟩ := Effect.bind_ok_iff.mp h
  cases h₁
  obtain ⟨_, _, h₂, h⟩ := Effect.bind_ok_iff.mp h
  cases h₂
  obtain ⟨_, _, h₃, h⟩ := Effect.bind_ok_iff.mp h
  obtain rfl := check_ok h₃
  obtain ⟨x, _, h₄, h⟩ := Effect.bind_ok_iff.mp h
  cases h₄
  obtain ⟨_, _, h₅, h⟩ := Effect.bind_ok_iff.mp h
  cases h₅
  have cells := newCell_cells h
  exact cells

/-- A neighbor is a new cell, or the given cell with something else in it. -/
theorem neighbor_cells {cell cell' : Nat} (h : s.neighbor cell j = .ok cell' j') :
    (s.moving ≠ .inPlace ∧ ∃ x, j'.cells = j.cells.push x ∧ cell' = j.cells.size) ∨
      s.moving = .inPlace ∧ ∃ x, j'.cells = j.cells.setIfInBounds cell x ∧ cell' = cell := by
  obtain ⟨_, _, h₁, h⟩ := Effect.bind_ok_iff.mp h
  cases h₁
  obtain ⟨_, _, h₂, h⟩ := Effect.bind_ok_iff.mp h
  cases h₂
  obtain ⟨_, _, h₃, h⟩ := Effect.bind_ok_iff.mp h
  obtain rfl := check_ok h₃
  obtain ⟨x, _, h₄, h⟩ := Effect.bind_ok_iff.mp h
  cases h₄
  obtain ⟨_, _, h₅, h⟩ := Effect.bind_ok_iff.mp h
  cases h₅
  cases hm : s.moving with
  | inPlace =>
      rw [hm] at h
      cases h
      exact .inr ⟨rfl, _, rfl, rfl⟩
  | sequence | walk =>
      rw [hm] at h
      have cells := newCell_cells h
      exact .inl ⟨nofun, _, cells⟩

/-- The cost of a cell is that of what it holds. -/
theorem cost_cells {cell : Nat} {k : Value} (h : s.cost cell j = .ok k j') :
    j'.cells = j.cells ∧ k = s.price (j.cells.getD cell 0) := by
  obtain ⟨_, _, h₁, h⟩ := Effect.bind_ok_iff.mp h
  cases h₁
  obtain ⟨_, _, h₂, h⟩ := Effect.bind_ok_iff.mp h
  cases h₂
  obtain ⟨_, _, h₃, h⟩ := Effect.bind_ok_iff.mp h
  obtain rfl := check_ok h₃
  obtain ⟨x, _, h₄, h⟩ := Effect.bind_ok_iff.mp h
  cases h₄
  cases h
  exact ⟨rfl, rfl⟩

theorem draw_cells {u : Float} (h : s.draw j = .ok u j') : j'.cells = j.cells := by
  obtain ⟨_, _, h₁, h⟩ := Effect.bind_ok_iff.mp h
  cases h₁
  obtain ⟨_, _, h₂, h⟩ := Effect.bind_ok_iff.mp h
  cases h₂
  cases h
  rfl

/-! What this means for contents. -/

theorem keeps_of_same (h : j'.cells = j.cells) : Keeps holds j j' := by
  intro cell x held
  rwa [holds, h]

theorem keeps_of_push {y : Int} (h : j'.cells = j.cells.push y) : Keeps holds j j' := by
  intro cell x held
  have inside := (Array.getElem?_eq_some_iff.mp held).1
  rw [holds, h, Array.getElem?_push_lt inside, ← Array.getElem?_eq_getElem inside]
  exact held

/-- The last cell holds what was put into it. -/
theorem holds_of_push {y : Int} (h : j'.cells = j.cells.push y) : holds j' j.cells.size y := by
  rw [holds, h]
  exact Array.getElem?_push_size

theorem getD_of_holds {cell : Nat} {x : Int} (held : holds j cell x) : j.cells.getD cell 0 = x := by
  rw [Array.getD_eq_getD_getElem?, held]
  rfl

/-- A copy holds what its original holds. -/
theorem copy_holds {cell cell' : Nat} {x : Int}
    (h : s.copy cell j = .ok cell' j') (held : holds j cell x) :
    holds j' cell' x := by
  obtain ⟨cells, rfl⟩ := copy_cells h
  rw [getD_of_holds held] at cells
  exact holds_of_push cells

theorem cost_price {cell : Nat} {k : Value} {x : Int}
    (h : s.cost cell j = .ok k j') (held : holds j cell x) :
    s.price x = k := by
  rw [(cost_cells h).2, getD_of_holds held]

end Script

end Annealing
