import Annealing.Proofs.Grouping.Requests

/-!
# Grouping — neighbors that are made in a store

Groups may lie in the cells of a store, and a grouping may be given by the cells of its groups.
There a neighbor is made in two steps: every group is copied into a new cell, and the members are
exchanged in the copies, in place (`Grouping.neighborIn`).

This makes the same neighbor (`Grouping.neighborIn_eq`), and no cell that was there is changed by
it, however often it is repeated (`Grouping.repeated_neighborIn`).  So the grouping that a neighbor
is made of stays what it was.
-/

namespace Annealing

variable {ω α : Type}

/-- A world with groups in cells. -/
structure Store (ω α : Type) where
  world : ω
  cells : List (List α)

namespace Store

/-- The grouping whose groups lie in cells of these numbers. -/
def read (cells : List (List α)) (g : List Nat) : Grouping α := g.map fun cell => cells.getD cell []

/-- Copies a group into a new cell. -/
def copyGroup (cell : Nat) : Effect (Store ω α) Nat := do
  let s ← get
  set { s with cells := s.cells ++ [s.cells.getD cell []] }
  return s.cells.length

/-- Replaces the member at a place of a group. -/
def put (g : List Nat) (group place : Nat) (m : α) : Effect (Store ω α) Unit :=
  match g[group]? with
  | some cell => modify fun s => { s with cells := s.cells.modify cell (·.set place m) }
  | none => pure ()

/-- Exchanges the members at the places of a swap. -/
def exchange (swap : Swap) (g : List Nat) : Effect (Store ω α) Unit := do
  let stored := read (← get).cells g
  match stored.member? swap.first swap.firstPlace, stored.member? swap.second swap.secondPlace with
  | some a, some b => do
      put g swap.first swap.firstPlace b
      put g swap.second swap.secondPlace a
  | _, _ => pure ()

/-- The cells behind others. -/
def behind (cells : List (List α)) (rows : Grouping α) : List Nat :=
  List.range' cells.length rows.length

/-! ### What happens in new cells -/

variable (w : ω) (cells : List (List α)) (rows : Grouping α)

@[simp] theorem read_behind : read (cells ++ rows) (behind cells rows) = rows := by
  refine List.ext_getElem (by simp [read, behind]) fun i _ inside => ?_
  simp [read, behind, inside]

theorem behind_congr {rows rows' : Grouping α} (h : rows'.length = rows.length) :
    behind cells rows' = behind cells rows := by
  rw [behind, behind, h]

/-- Groups that lie in cells are copied behind them. -/
theorem copyGroups {g : List Nat} (inside : ∀ cell ∈ g, cell < cells.length) :
    g.mapM copyGroup (⟨w, cells⟩ : Store ω α) =
      .ok (behind cells (read cells g)) ⟨w, cells ++ read cells g⟩ := by
  induction g generalizing cells with
  | nil => simp [read, behind]
  | cons cell rest ih =>
      have others : ∀ c ∈ rest, c < cells.length := fun c hc =>
        inside c (List.mem_cons_of_mem cell hc)
      have first : copyGroup cell (⟨w, cells⟩ : Store ω α) =
          .ok cells.length ⟨w, cells ++ [cells.getD cell []]⟩ := rfl
      -- the cells that are still to be copied hold what they held
      have same : read (cells ++ [cells.getD cell []]) rest = read cells rest := by
        refine List.map_congr_left fun c hc => ?_
        simp [List.getElem?_append_left (others c hc)]
      have behindRest := ih (cells ++ [cells.getD cell []]) fun c hc => by
        have := others c hc
        rw [List.length_append]
        omega
      rw [same] at behindRest
      rw [List.mapM_cons, Effect.bind_of_ok first, Effect.bind_of_ok behindRest]
      simp [read, behind, List.range'_succ]

/-- A change behind cells leaves them alone. -/
theorem modify_behind (i : Nat) (f : List α → List α) :
    (cells ++ rows).modify (cells.length + i) f = cells ++ rows.modify i f := by
  induction cells with
  | nil => simp
  | cons cell rest ih =>
      rw [List.length_cons, Nat.add_right_comm, List.cons_append, List.modify_succ_cons, ih,
        List.cons_append]

theorem put_behind (group place : Nat) (m : α) :
    put (behind cells rows) group place m (⟨w, cells ++ rows⟩ : Store ω α) =
      .ok () ⟨w, cells ++ rows.replace group place m⟩ := by
  rcases Nat.lt_or_ge group rows.length with inside | outside
  · have cell : (behind cells rows)[group]? = some (cells.length + group) := by
      simp [behind, inside]
    simp only [put, cell, Grouping.replace]
    rw [← modify_behind]
    rfl
  · have cell : (behind cells rows)[group]? = none := by simp [behind, outside]
    have unchanged : rows.replace group place m = rows := List.modify_eq_self outside
    simp only [put, cell, unchanged]
    rfl

/-- Members are exchanged behind the cells as in the grouping there. -/
theorem exchange_behind (swap : Swap) :
    exchange swap (behind cells rows) (⟨w, cells ++ rows⟩ : Store ω α) = .ok ()
      ⟨w, cells ++ swap.apply rows⟩ := by
  have stored : (get : Effect (Store ω α) (Store ω α))
      ⟨w, cells ++ rows⟩ = .ok ⟨w, cells ++ rows⟩ ⟨w, cells ++ rows⟩ := rfl
  rw [exchange, Effect.bind_of_ok stored, read_behind, Swap.apply]
  cases rows.member? swap.first swap.firstPlace with
  | none => rfl
  | some a =>
      cases rows.member? swap.second swap.secondPlace with
      | none => rfl
      | some b =>
          have length : (rows.replace swap.first swap.firstPlace b).length = rows.length := by
            rw [Grouping.replace, List.length_modify]
          have second := put_behind w cells
            (rows.replace swap.first swap.firstPlace b) swap.second swap.secondPlace a
          rw [behind_congr cells length] at second
          exact (Effect.bind_of_ok
            (put_behind w cells rows swap.first swap.firstPlace b)).trans second

end Store

namespace Grouping

open Store

/-- A neighbor that is made in a store. -/
def neighborIn (draws : Draws ω) (g : List Nat) : Effect (Store ω α) (List Nat) := do
  let copied ← g.mapM Store.copyGroup
  match ← (drawSwap draws (Store.read (← get).cells copied)).inField Store.world fun s w =>
    { s with world := w } with
  | some swap => do
      Store.exchange swap copied
      return copied
  | none => return copied

/-- **A neighbor that is made in a store is the neighbor of the grouping there.**  It lies in new
cells, behind those that there were. -/
theorem neighborIn_eq {draws : Draws ω} {cells : List (List α)} {g : List Nat}
    (inside : ∀ cell ∈ g, cell < cells.length) {w w' : ω} {h : Grouping α}
    (made : neighbor draws (read cells g) w = .ok h w') :
    neighborIn draws g ⟨w, cells⟩ = .ok (behind cells h) ⟨w', cells ++ h⟩ := by
  obtain ⟨drawn, w₁, draw, applied⟩ := Effect.bind_ok_iff.mp made
  generalize rows_eq : read cells g = rows at draw applied
  have copied := copyGroups w cells inside
  rw [rows_eq] at copied
  have stored : (get : Effect (Store ω α) (Store ω α))
      ⟨w, cells ++ rows⟩ = .ok ⟨w, cells ++ rows⟩ ⟨w, cells ++ rows⟩ := rfl
  have drawnIn :
      (drawSwap draws rows).inField Store.world (fun s w => { s with world := w })
        ⟨w, cells ++ rows⟩ = .ok drawn ⟨w₁, cells ++ rows⟩ :=
    Effect.inField_ok_iff.mpr ⟨w₁, draw, rfl⟩
  rw [neighborIn, Effect.bind_of_ok copied, Effect.bind_of_ok stored, read_behind,
    Effect.bind_of_ok drawnIn]
  cases drawn with
  | none =>
      cases applied
      rfl
  | some swap =>
      cases applied
      have length : (swap.apply rows).length = rows.length := by
        unfold Swap.apply
        split
        · simp [replace]
        · rfl
      rw [behind_congr cells length]
      exact (Effect.bind_of_ok (exchange_behind w' cells rows swap)).trans rfl

end Grouping

/-- An effect on a state, repeated on what it makes of the state. -/
def Effect.repeated {σ : Type} (step : σ → Effect ω σ) : Nat → σ → Effect ω σ
  | 0, x => pure x
  | n + 1, x => do repeated step n (← step x)

namespace Grouping

open Store

/-- **Neighbors of neighbors that are made in a store** are those of the grouping there, and all
cells that there were hold what they held.  All but the given grouping lie in new cells. -/
theorem repeated_neighborIn {draws : Draws ω} {h : Grouping α} {w' : ω} :
    ∀ {n : Nat} {w : ω} {cells : List (List α)} {g : List Nat}, (∀ cell ∈ g, cell < cells.length) →
      Effect.repeated (neighbor draws) n (read cells g) w = .ok h w' →
      ∃ copies cells', Effect.repeated (neighborIn draws) n g ⟨w, cells⟩ = .ok copies ⟨w', cells'⟩ ∧
        read cells' copies = h ∧ cells <+: cells' ∧
        (0 < n → ∀ cell ∈ copies, cells.length ≤ cell) := by
  intro n
  induction n with
  | zero =>
      intro w cells g _ made
      cases made
      exact ⟨g, cells, rfl, rfl, List.prefix_refl cells, nofun⟩
  | succ n ih =>
      intro w cells g inside made
      obtain ⟨first, w₁, step, rest⟩ := Effect.bind_ok_iff.mp made
      have behindInside : ∀ cell ∈ behind cells first, cell < (cells ++ first).length := by
        intro cell hcell
        simp only [behind, List.mem_range'_1] at hcell
        rw [List.length_append]
        exact hcell.2
      rw [← read_behind cells first] at rest
      obtain ⟨copies, cells', made', content, kept, fresh⟩ := ih behindInside rest
      refine ⟨copies, cells', (Effect.bind_of_ok (neighborIn_eq inside step)).trans made', content,
        (List.prefix_append cells first).trans kept, fun _ cell hcell => ?_⟩
      cases n with
      | zero =>
          cases made'
          simp only [behind, List.mem_range'_1] at hcell
          exact hcell.1
      | succ n =>
          have := fresh (Nat.succ_pos n) cell hcell
          rw [List.length_append] at this
          omega

/-- A grouping in cells that were there is what it was. -/
theorem read_of_prefix {cells cells' : List (List α)} {g : List Nat}
    (inside : ∀ cell ∈ g, cell < cells.length) (kept : cells <+: cells') :
    read cells' g = read cells g := by
  obtain ⟨new, rfl⟩ := kept
  refine List.map_congr_left fun cell hcell => ?_
  simp [List.getElem?_append_left (inside cell hcell)]

end Grouping

end Annealing
