import Annealing.Proofs.Search.Mirror

/-!
# Search — the calls a search makes

Which states a search generates depends on every decision before, and nothing of it remains in the
result.  To speak about the course of a run, its strategy is watched: `Search.watched` is the same
search in a world that also keeps a list of the calls that were answered, in order.
`Search.journal` is this list at the end of a run.

Watching changes nothing: the watched search mirrors the search (`Search.watched_mirrors`), so a
watched run shows the run itself (`Search.watched_run`).

* `Journal.generated` are the candidates of a run, `Journal.costs` the costs that occurred, and
  `Journal.copies` the number of copies made.
* `Search.visited` is the initial state with all candidates behind it.
-/

namespace Annealing

variable {ω σ κ : Type}

/-- A call that was answered, with its answer. -/
inductive Call (σ κ : Type) where
  | copied (state copy : σ)
  | generated (parent candidate : σ)
  | priced (state : σ) (cost : κ)
  | drew (x : Float)

/-- A world with the calls made in it, the first one first. -/
structure Watched (ω σ κ : Type) where
  world : ω
  calls : List (Call σ κ)

namespace Journal

/-- The candidates, in the order in which they were generated. -/
def generated (calls : List (Call σ κ)) : List σ :=
  calls.filterMap fun
    | .generated _ candidate => some candidate
    | _ => none

/-- The costs that occurred, in their order. -/
def costs (calls : List (Call σ κ)) : List κ :=
  calls.filterMap fun
    | .priced _ k => some k
    | _ => none

/-- The number of copies made. -/
def copies (calls : List (Call σ κ)) : Nat :=
  calls.countP fun
    | .copied _ _ => true
    | _ => false

section

variable (calls more : List (Call σ κ))

@[simp] theorem generated_append : generated (calls ++ more) = generated calls ++ generated more :=
  List.filterMap_append

@[simp] theorem costs_append : costs (calls ++ more) = costs calls ++ costs more :=
  List.filterMap_append

@[simp] theorem copies_append : copies (calls ++ more) = copies calls + copies more :=
  List.countP_append

end

section

variable (draws : List Float)

@[simp] theorem generated_drew : generated (draws.map (Call.drew : Float → Call σ κ)) = [] := by
  simp [generated, List.filterMap_map]

@[simp] theorem costs_drew : costs (draws.map (Call.drew : Float → Call σ κ)) = [] := by
  simp [costs, List.filterMap_map]

@[simp] theorem copies_drew : copies (draws.map (Call.drew : Float → Call σ κ)) = 0 := by
  simp [copies, List.countP_map, Function.comp_def]

end

end Journal

namespace Search

/-- An effect whose answer is noted as a call. -/
def watch {α : Type} (act : Effect ω α) (call : α → Call σ κ) : Effect (Watched ω σ κ) α :=
  fun w => match act w.world with
    | .ok a w' => .ok a ⟨w', w.calls ++ [call a]⟩
    | .error e w' => .error e ⟨w', w.calls⟩

/-- The search with its calls noted. -/
def watched (S : Search ω σ κ) : Search (Watched ω σ κ) σ κ where
  copy s := watch (S.copy s) (.copied s)
  neighbor s := watch (S.neighbor s) (.generated s)
  cost s := watch (S.cost s) (.priced s)
  draw := watch S.draw .drew
  scale := S.scale
  options := S.options
  logging := S.logging

theorem watch_ok_iff {α : Type} {act : Effect ω α} {call : α → Call σ κ}
    {w w' : Watched ω σ κ} {a : α} :
    watch act call w = .ok a w' ↔ act w.world = .ok a w'.world ∧
    w'.calls = w.calls ++ [call a] := by
  simp only [watch]
  cases act w.world with
  | ok b v =>
      constructor
      · intro h
        cases h
        exact ⟨rfl, rfl⟩
      · rintro ⟨h, hc⟩
        obtain ⟨world, calls⟩ := w'
        cases h
        cases hc
        rfl
  | error e v => simp

/-- The calls of a trial up to the decision. -/
theorem considered_calls (S : Search ω σ κ) {s : Standing σ κ} {w w₁ w₂ w₃ : Watched ω σ κ}
    {temperature : Float} {candidate : σ} {k : κ} {move : Bool × Status}
    (neighbor : S.watched.neighbor s.current w = .ok candidate w₁)
    (cost : S.watched.cost candidate w₁ = .ok k w₂)
    (decide : S.watched.decideMove temperature s.currentCost k w₂ = .ok move w₃) :
    ∃ draws : List Float,
      w₃.calls =
        w.calls ++ ([.generated s.current candidate, .priced candidate k] ++ draws.map .drew) := by
  obtain ⟨-, l₁⟩ := watch_ok_iff.mp neighbor
  obtain ⟨-, l₂⟩ := watch_ok_iff.mp cost
  rcases S.watched.decideMove_ok decide with rfl | ⟨u, hu⟩
  · exact ⟨[], by rw [l₂, l₁]; simp⟩
  · obtain ⟨-, l₃⟩ := watch_ok_iff.mp hu
    exact ⟨[u], by rw [l₃, l₂, l₁]; simp⟩

/-- A trial adds the cost of its candidate to those that occurred. -/
theorem considered_costs (S : Search ω σ κ) {s : Standing σ κ} {w w₁ w₂ w₃ : Watched ω σ κ}
    {temperature : Float} {candidate : σ} {k : κ} {move : Bool × Status}
    (neighbor : S.watched.neighbor s.current w = .ok candidate w₁)
    (cost : S.watched.cost candidate w₁ = .ok k w₂)
    (decide : S.watched.decideMove temperature s.currentCost k w₂ = .ok move w₃) :
    Journal.costs w₃.calls = Journal.costs w.calls ++ [k] := by
  obtain ⟨draws, calls⟩ := S.considered_calls neighbor cost decide
  rw [calls, Journal.costs_append, Journal.costs_append, Journal.costs_drew]
  rfl

/-! ### Watching changes nothing -/

/-- The progress of a search, seen without the calls. -/
def unwatched (p : Progress (Watched ω σ κ)) : Progress ω := p.shown Watched.world

open Effect in
theorem watch_shows {α : Type} (act : Effect ω α) (call : α → Call σ κ) :
    Shows Watched.world (watch act call) act := by
  intro w
  simp only [watch]
  cases act w.world <;> rfl

theorem watched_mirrors (S : Search ω σ κ) : Mirrors Watched.world S.watched S where
  copy _ := watch_shows _ _
  neighbor _ := watch_shows _ _
  cost _ := watch_shows _ _
  draw := watch_shows _ _
  scale := rfl
  options := rfl
  logging := rfl

/-- **Watching changes nothing.** -/
theorem watched_run (S : Search ω σ κ) (initial : σ) :
    Effect.Shows unwatched (S.watched.run initial) (S.run initial) :=
  S.watched_mirrors.run initial

/-! ### The journal of a run -/

/-- The progress of a watched search before its first call. -/
def unopened (p : Progress ω) : Progress (Watched ω σ κ) := ⟨⟨p.world, []⟩, p.log⟩

/-- The calls that a search from an initial state makes, in their order. -/
def journal (S : Search ω σ κ) (initial : σ) (p : Progress ω) : List (Call σ κ) :=
  ((S.watched.run initial).outcome (unopened p)).2.world.calls

/-- The initial state and the candidates of a run, in their order. -/
def visited (S : Search ω σ κ) (initial : σ) (p : Progress ω) : List σ :=
  initial :: Journal.generated (S.journal initial p)

/-- A watched run that answers shows the run, and has its journal. -/
theorem run_of_watched {S : Search ω σ κ} {initial : σ} {p : Progress ω}
    {q : Progress (Watched ω σ κ)} {s : Standing σ κ}
    (h : S.watched.run initial (unopened p) = .ok s q) :
    S.run initial p = .ok s (unwatched q) ∧ S.journal initial p = q.world.calls := by
  refine ⟨(S.watched_run initial).part_ok h, ?_⟩
  rw [journal, Effect.outcome_of_ok h]

/-- A run that answers is a watched run that answers, with the journal at its end. -/
theorem watched_of_run {S : Search ω σ κ} {initial : σ} {p p' : Progress ω} {s : Standing σ κ}
    (h : S.run initial p = .ok s p') :
    S.watched.run initial (unopened p) = .ok s ⟨⟨p'.world, S.journal initial p⟩, p'.log⟩ := by
  obtain ⟨⟨⟨world, calls⟩, log⟩, hw, hp⟩ := (S.watched_run initial).ok (w := unopened p) h
  have hj : S.journal initial p = calls := by
    unfold journal Effect.outcome
    rw [hw]
  rw [hj, hw, ← hp]
  rfl

end Search

end Annealing
