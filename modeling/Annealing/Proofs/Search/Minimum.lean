import Annealing.Proofs.Search.Leader
import Annealing.Proofs.Search.Shelter
import Annealing.Proofs.Search.Sight
import Mathlib.Data.List.Forall2

/-!
# Search — the result is the first of the cheapest states

**The result** (`Search.best_first_minimum`).  Where a run of a strategy that shelters its copies
ends, and the costs that occurred are ordered, the best state holds what the first of the cheapest
among the initial state and all candidates held when it was generated, those that were turned down
included.  Its cost is the best cost of the last standing.  Two copies were made at the start, and
one for every candidate cheaper than everything before it.

The invariant (`Search.Tracks`) needs no order: the best cost is the leader of the costs so far, and
the best state holds what the state at the leader's place held.  What the other states hold by now
does not matter, so a strategy may write over them (`twoBuffers`).
-/

namespace Annealing

variable {ω σ κ γ : Type}

namespace Search

variable {S : Search ω σ κ} {holds : ω → σ → γ → Prop} {apart : ω → σ → σ → Prop} {price : γ → κ}

/-- The best state is a copy of the state at the place of the leading cost, as this was when it was
generated. -/
structure Tracks (S : Search ω σ κ) (holds : ω → σ → γ → Prop) (price : γ → κ) (first : Sight ω σ)
    (s : Standing σ κ) (w : Sighted ω σ κ) : Prop where
  seen : w.sights.map Sight.state = Journal.generated w.watched.calls
  priced : List.Forall₂ (fun x k => Costs holds price x.world x.state k) (first :: w.sights)
    (Journal.costs w.watched.calls)
  leads :
    ∃ place changes x, S.scale.Leads (Journal.costs w.watched.calls) place s.bestCost changes ∧
    Journal.copies w.watched.calls = changes + 2 ∧ (first :: w.sights)[place]? = some x ∧
    ∀ c, holds x.world x.state c → holds w.watched.world s.best c

theorem Tracks.start (shelters : S.Shelters holds apart price) {initial : σ} {w : ω} {c₀ : γ}
    (h₀ : holds w initial c₀) {s : Standing σ κ} {w' : Sighted ω σ κ}
    (h : S.sighted.start initial ⟨⟨w, []⟩, []⟩ = .ok s w') :
    S.Tracks holds price ⟨initial, w⟩ s w' := by
  obtain ⟨current, k, best, w₁, w₂, h₁, h₂, h₃, rfl⟩ := S.sighted.start_ok_iff.mp h
  obtain ⟨h₁, unseen₁⟩ := inWatched_ok_iff.mp h₁
  obtain ⟨h₂, unseen₂⟩ := inWatched_ok_iff.mp h₂
  obtain ⟨h₃, unseen₃⟩ := inWatched_ok_iff.mp h₃
  obtain ⟨h₁, l₁⟩ := watch_ok_iff.mp h₁
  obtain ⟨h₂, l₂⟩ := watch_ok_iff.mp h₂
  obtain ⟨h₃, l₃⟩ := watch_ok_iff.mp h₃
  have unseen : w'.sights = [] := unseen₃.trans (unseen₂.trans unseen₁)
  have calls :
      w'.watched.calls = [.copied initial current, .priced initial k, .copied initial best] := by
    rw [l₃, l₂, l₁]
    rfl
  have price₀ : price c₀ = k := shelters.cost_price h₂ (shelters.copy_keeps h₁ _ _ h₀)
  refine ⟨?_, ?_, 0, 0, ⟨initial, w⟩, ?_, ?_, rfl, fun c held => ?_⟩
  · rw [unseen, calls]
    rfl
  · rw [unseen, calls]
    exact .cons ⟨c₀, h₀, price₀⟩ .nil
  · rw [calls]
    exact .first k
  · rw [calls]
    rfl
  · have held₁ := shelters.copy_keeps h₁ _ _ held
    exact shelters.copy_holds h₃ ((shelters.cost_undisturbed h₂).keeps _ _ held₁)

/-! ### One trial -/

/-- The calls of a trial up to the decision: the candidate is seen as it was generated, and
priced. -/
theorem sighted_considered {s : Standing σ κ} {w w₁ w₂ w₃ : Sighted ω σ κ} {temperature : Float}
    {candidate : σ} {k : κ} {move : Bool × Status}
    (neighbor : S.sighted.neighbor s.current w = .ok candidate w₁)
    (cost : S.sighted.cost candidate w₁ = .ok k w₂)
    (decide : S.sighted.decideMove temperature s.currentCost k w₂ = .ok move w₃) :
    w₃.sights = w.sights ++ [⟨candidate, w₁.watched.world⟩] ∧
      Journal.generated w₃.watched.calls = Journal.generated w.watched.calls ++ [candidate] ∧
      Journal.costs w₃.watched.calls = Journal.costs w.watched.calls ++ [k] ∧
      Journal.copies w₃.watched.calls = Journal.copies w.watched.calls := by
  obtain ⟨generated, looked⟩ := sight_ok neighbor
  obtain ⟨priced, same₂⟩ := inWatched_ok_iff.mp cost
  have decided := (S.sighted_mirrors.decideMove _ _ _).part_ok decide
  have same₃ : w₃.sights = w₂.sights := by
    rcases S.sighted.decideMove_ok decide with rfl | ⟨u, drawn⟩
    · rfl
    · exact (inWatched_ok_iff.mp drawn).2
  obtain ⟨draws, calls⟩ := S.considered_calls generated priced decided
  refine ⟨same₃.trans (same₂.trans looked), ?_, S.considered_costs generated priced decided, ?_⟩
  · rw [calls, Journal.generated_append, Journal.generated_append, Journal.generated_drew]
    rfl
  · rw [calls, Journal.copies_append, Journal.copies_append, Journal.copies_drew]
    rfl

/-- The part of a sighted search that the strategy knows of. -/
theorem sighted_strategy (S : Search ω σ κ) : Mirrors (fun w => w.watched.world) S.sighted S :=
  S.sighted_mirrors.trans S.watched_mirrors

/-- A candidate that was decided about is seen and priced like those before it. -/
theorem Tracks.considered (shelters : S.Shelters holds apart price) {first : Sight ω σ}
    {s : Standing σ κ} {w w₁ w₂ w₃ : Sighted ω σ κ} {temperature : Float} {candidate : σ} {k : κ}
    {move : Bool × Status} (h : S.Tracks holds price first s w) {c : γ}
    (current : holds w.watched.world s.current c)
    (neighbor : S.sighted.neighbor s.current w = .ok candidate w₁)
    (cost : S.sighted.cost candidate w₁ = .ok k w₂)
    (decide : S.sighted.decideMove temperature s.currentCost k w₂ = .ok move w₃) :
    w₃.sights.map Sight.state = Journal.generated w₃.watched.calls ∧
      List.Forall₂ (fun x k => Costs holds price x.world x.state k) (first :: w₃.sights)
        (Journal.costs w₃.watched.calls) := by
  obtain ⟨looked, generated, costs, -⟩ := sighted_considered neighbor cost decide
  have mirrors := S.sighted_strategy
  obtain ⟨-, c', held⟩ := shelters.neighbor_holds ((mirrors.neighbor _).part_ok neighbor) current
  have last : Costs holds price w₁.watched.world candidate k :=
    ⟨c', held, shelters.cost_price ((mirrors.cost _).part_ok cost) held⟩
  constructor
  · rw [looked, generated, List.map_append, h.seen]
    rfl
  · rw [looked, costs, ← List.cons_append]
    exact List.rel_append h.priced (.cons last .nil)

/-- **One trial keeps the best state a copy of the leader's.** -/
theorem Tracks.step (shelters : S.Shelters holds apart price) {first : Sight ω σ}
    {temperature : Float} {s s' : Standing σ κ} {w w' : Sighted ω σ κ} {status : Status}
    (sheltered : Sheltered holds apart price s w.watched.world) (h : S.Tracks holds price first s w)
    (attempted : S.sighted.Attempted temperature s w status s' w') :
    S.Tracks holds price first s' w' := by
  obtain ⟨c, current⟩ := sheltered.current
  obtain ⟨place, changes, x, leads, copies, hx, led⟩ := h.leads
  have mirrors := S.sighted_strategy
  cases attempted with
  | @better candidate copied k moves _ w₁ w₂ w₃ _ neighbor cost move less copy =>
      obtain ⟨looked, -, costs, copies₃⟩ := sighted_considered neighbor cost move
      obtain ⟨seen, priced⟩ := h.considered shelters current neighbor cost move
      have kept := (considered_undisturbed shelters ((mirrors.cost _).part_ok cost)
        ((mirrors.decideMove _ _ _).part_ok move)).keeps
      obtain ⟨copy, unseen⟩ := inWatched_ok_iff.mp copy
      obtain ⟨copy, calls⟩ := watch_ok_iff.mp copy
      -- the copy is neither a candidate nor a cost
      have generated' :
          Journal.generated w'.watched.calls = Journal.generated w₃.watched.calls := by
        rw [calls, Journal.generated_append]
        exact List.append_nil _
      have costs' : Journal.costs w'.watched.calls = Journal.costs w₃.watched.calls := by
        rw [calls, Journal.costs_append]
        exact List.append_nil _
      have copies' : Journal.copies w'.watched.calls = changes + 1 + 2 := by
        rw [calls, Journal.copies_append, copies₃, copies]
        rfl
      -- the candidate leads now, and the copy of it is made before anything else can happen to it
      refine ⟨by rw [unseen, seen, generated'], by rw [unseen, costs']; exact priced,
        (Journal.costs w.watched.calls).length, changes + 1, ⟨candidate, w₁.watched.world⟩, ?_,
        copies', ?_, fun c held => shelters.copy_holds copy (kept _ _ held)⟩
      · rw [costs', costs]
        exact leads.take less
      · rw [unseen, looked, ← List.cons_append, ← h.priced.length_eq]
        exact List.getElem?_concat_length
  | @other candidate k moves _ w₁ w₂ _ neighbor cost move less =>
      obtain ⟨looked, -, costs, copies₃⟩ := sighted_considered neighbor cost move
      obtain ⟨seen, priced⟩ := h.considered shelters current neighbor cost move
      have kept := (considered_undisturbed shelters ((mirrors.cost _).part_ok cost)
        ((mirrors.decideMove _ _ _).part_ok move)).keeps
      have made := (mirrors.neighbor _).part_ok neighbor
      refine ⟨seen, priced, place, changes, x, ?_, copies₃.trans copies, ?_, fun c held => ?_⟩
      · rw [costs, Standing.after_bestCost]
        exact leads.keep less
      · rw [looked, ← List.cons_append]
        exact (List.getElem?_append_left (List.getElem?_eq_some_iff.mp hx).1).trans hx
      · rw [Standing.after_best]
        exact kept _ _ (shelters.neighbor_spares made sheltered.apart (led c held)).1

/-! ### The result -/

/-- The best state of a standing holds what the first of the cheapest of all states held that the
search came by. -/
structure FirstMinimum (S : Search ω σ κ) (holds : ω → σ → γ → Prop) (price : γ → κ) (initial : σ)
    (p : Progress ω) (s : Standing σ κ) (w : ω) : Prop where
  /-- The sights are those of the initial state and all candidates, in the order in which they were
  generated. -/
  seen : (S.sights initial p).map Sight.state = S.visited initial p
  /-- The costs are those of what these states held then. -/
  priced : List.Forall₂ (fun x k => Costs holds price x.world x.state k) (S.sights initial p)
    (Journal.costs (S.journal initial p))
  /-- The best state holds what the first state of the best cost held, and no cost is below this
  one. -/
  first : ∃ place x, (S.sights initial p)[place]? = some x ∧
    (Journal.costs (S.journal initial p))[place]? = some s.bestCost ∧
    (∀ c, holds x.world x.state c → holds w s.best c) ∧
    (∀ k ∈ Journal.costs (S.journal initial p), ¬ S.scale.isBelow k s.bestCost) ∧
    ∀ k ∈ (Journal.costs (S.journal initial p)).take place, S.scale.isBelow s.bestCost k
  cost : Costs holds price w s.best s.bestCost
  copied : Journal.copies (S.journal initial p) =
    2 + S.scale.improvements (Journal.costs (S.journal initial p))

/-- Where a run ends, the best state is a copy of the leader's. -/
theorem run_tracks (shelters : S.Shelters holds apart price) {initial : σ} {p p' : Progress ω}
    {c₀ : γ} (h₀ : holds p.world initial c₀) {s : Standing σ κ} {watched : Watched ω σ κ}
    {later : List (Sight ω σ)}
    (h : S.sighted.run initial (unsighted p) = .ok s ⟨⟨watched, later⟩, p'.log⟩) :
    Sheltered holds apart price s watched.world ∧
    S.Tracks holds price ⟨initial, p.world⟩ s ⟨watched, later⟩ :=
  run_ok
    (I := fun s w => Sheltered holds apart price s w.watched.world ∧
      S.Tracks holds price ⟨initial, p.world⟩ s w)
    (fun started => ⟨start_sheltered shelters h₀
      ((S.sighted_strategy.start initial).part_ok started),
      .start shelters h₀ started⟩)
    (fun ⟨sheltered, tracks⟩ attempted =>
      ⟨attempted_sheltered shelters sheltered (S.sighted_strategy.attempted attempted),
        tracks.step shelters sheltered attempted⟩)
    h

/-- **The result of a search is the first of the cheapest states.** -/
theorem best_first_minimum (shelters : S.Shelters holds apart price) {initial : σ}
    {p p' : Progress ω} {c₀ : γ} (h₀ : holds p.world initial c₀) {s : Standing σ κ}
    (h : S.run initial p = .ok s p')
    (ordered : S.scale.Orders (Journal.costs (S.journal initial p))) :
    FirstMinimum S holds price initial p s p'.world := by
  obtain ⟨later, sights, run⟩ := sighted_of_run h
  obtain ⟨sheltered, tracks⟩ := run_tracks shelters h₀ run
  obtain ⟨place, changes, x, leads, copies, hx, led⟩ := tracks.leads
  refine ⟨?_, ?_,
    ⟨place, x, ?_, leads.getElem?, led, leads.not_below ordered, leads.below_before ordered⟩,
    sheltered.best, ?_⟩
  · rw [sights, visited, List.map_cons, tracks.seen]
  · rw [sights]
    exact tracks.priced
  · rw [sights]
    exact hx
  · rw [leads.improvements_eq ordered, Nat.add_comm]
    exact copies

/-! ### A strategy that writes over former candidates -/

/-- A number in one of two buffers, or in a cell of its own. -/
inductive Slot where
  | buffer (second : Bool)
  | cell (place : Nat)

/-- The buffer that is not the given slot. -/
def Slot.spare : Slot → Bool
  | .buffer second => !second
  | .cell _ => false

theorem Slot.ne_spare (x : Slot) : x ≠ .buffer x.spare := by
  rcases x with (_ | _) | _ <;> simp [spare]

/-- Two buffers, the cells, and the number of neighbors made. -/
structure Desk where
  buffers : Bool → Nat
  cells : Array Nat
  made : Nat

namespace Desk

def content (w : Desk) : Slot → Option Nat
  | .buffer second => some (w.buffers second)
  | .cell place => w.cells[place]?

/-- The desk with a new cell. -/
def push (w : Desk) (n : Nat) : Desk := { w with cells := w.cells.push n }

/-- The desk with the number of the next neighbor in a buffer. -/
def write (w : Desk) (second : Bool) : Desk :=
  { w with buffers := Function.update w.buffers second (w.made + 1), made := w.made + 1 }

theorem content_push {w : Desk} {x : Slot} {c : Nat} (h : w.content x = some c) (n : Nat) :
    (w.push n).content x = some c := by
  cases x with
  | buffer second => exact h
  | cell place =>
      have inside := (Array.getElem?_eq_some_iff.mp h).1
      exact (Array.getElem?_push_lt inside).trans ((Array.getElem?_eq_getElem inside).symm.trans h)

/-- A buffer that is written leaves the other slots alone. -/
theorem content_write {w : Desk} {x : Slot} {second : Bool} (other : x ≠ .buffer second) :
    (w.write second).content x = w.content x := by
  cases x with
  | buffer b =>
      exact congrArg some (Function.update_of_ne (fun same => other (congrArg _ same)) _ _)
  | cell place => rfl

end Desk

/-- Neighbors are written into the buffer that is not the given state, and copies into new cells. -/
def twoBuffers (price : Nat → Value) (options : Options) : Search Desk Slot Value where
  copy x := .ofStep fun w => (.cell w.cells.size, w.push ((w.content x).getD 0))
  neighbor x := .ofStep fun w => (.buffer x.spare, w.write x.spare)
  cost x := .ofStep fun w => (price ((w.content x).getD 0), w)
  scale := .values
  draw := pure 0.5
  options := options
  logging := true

/-- What is in a cell is safe, though the buffers are written over and over. -/
theorem twoBuffers_shelters (price : Nat → Value) (options : Options) :
    (twoBuffers price options).Shelters (fun w x c => w.content x = some c)
      (fun _ _ x => ∃ place, x = .cell place)
      price where
  copy_keeps h := by
    cases h
    exact fun _ _ held => Desk.content_push held _
  copy_holds {x _ w _ c} h held := by
    cases h
    change (w.push ((w.content x).getD 0)).cells[w.cells.size]? = some c
    rw [held]
    exact Array.getElem?_push_size
  copy_apart h _ := by
    cases h
    exact ⟨_, rfl⟩
  neighbor_spares h apart held := by
    cases h
    obtain ⟨place, rfl⟩ := apart
    exact ⟨held, ⟨_, rfl⟩, _, rfl⟩
  neighbor_holds {x _ w _ c} h held := by
    cases h
    exact ⟨⟨c, (Desk.content_write x.ne_spare).trans held⟩, _, rfl⟩
  cost_undisturbed h := by
    cases h
    exact .refl _
  cost_price {x _ w _ c} h held := by
    cases h
    rw [held]
    rfl
  draw_undisturbed h := by
    cases h
    exact .refl _

/-- Integers, doubles and a truth value; two costs occur twice. -/
def mixedCosts : List Value :=
  [.int 5, .float 7.5, .float 3.5, .float 3.5, .bool true, .int 1, .int 4]

/-- Three levels of two trials, all below zero, where nothing is left to chance. -/
def coldOptions : Options :=
  { initialTemperature := -1, coolingFactor := 2, minimumTemperature := -5,
    swapsPerTemperature := 2, logPeriod := 1,
    extras := [] }

/-- Two of six candidates are cheaper than all before them.  Both are equalled later, and the buffer
of the first one is written over by the fifth. -/
theorem twoBuffers_first_minimum :
    let S := twoBuffers (mixedCosts.getD · .null) coldOptions
    let p : Progress Desk := ⟨{ buffers := fun _ => 0, cells := #[0], made := 0 }, #[]⟩
    ∃ s p', S.run (.cell 0) p = .ok s p' ∧
      p'.log.toList.map Trial.status = [.reject, .best, .reject, .best, .reject, .reject] ∧
      FirstMinimum S (fun w x c => w.content x = some c) (mixedCosts.getD · .null)
        (.cell 0) p s p'.world := by
  intro S p
  obtain ⟨s, p', run⟩ : ∃ s p', S.run (.cell 0) p = .ok s p' :=
    Effect.ok_of_outcome (by decide +kernel)
  have statuses : ((S.run (.cell 0)).outcome p).2.log.toList.map Trial.status =
      [.reject, .best, .reject, .best, .reject, .reject] := by decide +kernel
  rw [Effect.outcome_of_ok run] at statuses
  have numbers : ∀ k ∈ Journal.costs (S.journal (.cell 0) p), k.isOrdered := by decide +kernel
  exact ⟨s, p', run, statuses, best_first_minimum (twoBuffers_shelters _ _) rfl run
    (CostScale.values_orders_of_numbers numbers)⟩

end Search

end Annealing
