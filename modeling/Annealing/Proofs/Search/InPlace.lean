import Annealing.Proofs.Search.Calls
import Annealing.Proofs.Search.Contents
import Annealing.Proofs.Search.Safety
import Annealing.Proofs.Search.Leader
import Mathlib.Algebra.BigOperators.Group.List.Basic

/-!
# Search — one object that is changed over and over

A strategy may add a move to the state it is given and return that same state as the neighbor.  Then
the current state and every candidate are one object, and a candidate that is turned down stays
changed all the same.

A strategy *edits in place* (`Search.EditsInPlace`) if it does so, and makes its copies as new
objects.  The contents of the one object are then sums of moves (`running`), whatever the acceptance
rule says.

* `Search.Workspace`: the initial object holds what it held, and the one object holds the sum of all
  moves so far.
* `Search.InPlace`: the best state is a third object that holds the sum at the place of the leading
  cost.
* `Search.run_in_place`: a search with a finite schedule ends so.  Its best state holds the first of
  the cheapest sums, and costs the best cost, though the one object has been changed since.

A script that moves in place is such a strategy, with any costs of its contents
(`Script.edits_in_place`).
-/

namespace Annealing

variable {ω σ κ γ : Type}

/-! ### Objects -/

/-- What can be seen of a world of objects. -/
structure Objects (ω σ γ : Type) where
  /-- What an object holds, nothing if there is no such object. -/
  content : ω → σ → Option γ
  /-- The number of neighbors made. -/
  made : ω → Nat
  /-- What the objects held that neighbors were made of. -/
  seen : ω → List γ

/-- Every object holds what it held, and no neighbor has been made. -/
structure Objects.Kept (O : Objects ω σ γ) (w w' : ω) : Prop where
  content : ∀ {x c}, O.content w x = some c → O.content w' x = some c
  made : O.made w' = O.made w
  seen : O.seen w' = O.seen w

theorem Objects.Kept.refl {O : Objects ω σ γ} (w : ω) : O.Kept w w := ⟨fun h => h, rfl, rfl⟩

theorem Objects.Kept.trans {O : Objects ω σ γ} {w w₁ w₂ : ω} (h : O.Kept w w₁) (h' : O.Kept w₁ w₂) :
    O.Kept w w₂ :=
  ⟨fun held => h'.content (h.content held), h'.made.trans h.made, h'.seen.trans h.seen⟩

/-- A new object is none of those there were. -/
theorem Objects.ne_of_new {O : Objects ω σ γ} {w : ω} {x y : σ} {c : γ} (new : O.content w x = none)
    (held : O.content w y = some c) : x ≠ y := by
  rintro rfl
  rw [new] at held
  cases held

/-- A strategy that makes new objects for copies and adds moves to the object it makes a neighbor
of; the cost of an object is the price of what it holds. -/
structure Search.EditsInPlace [Add γ] (S : Search ω σ κ) (O : Objects ω σ γ)
    (moves : Nat → γ) (price : γ → κ) :
    Prop where
  copy : ∀ {x w c}, O.content w x = some c →
    ∃ x' w', S.copy x w = .ok x' w' ∧ O.content w x' = none ∧ O.content w' x' = some c ∧ O.Kept w w'
  neighbor : ∀ {x w c}, O.content w x = some c →
    ∃ w', S.neighbor x w = .ok x w' ∧ O.content w' x = some (c + moves (O.made w)) ∧
      (∀ y, y ≠ x → O.content w' y = O.content w y) ∧ O.made w' = O.made w + 1 ∧
      O.seen w' = O.seen w ++ [c]
  cost : ∀ {x w c}, O.content w x = some c → ∃ w', S.cost x w = .ok (price c) w' ∧ O.Kept w w'
  draw : ∀ w, ∃ u w', S.draw w = .ok u w' ∧ O.Kept w w'

/-- Prices that can be compared, judged and shown, and are ordered. -/
structure CostScale.Compares (scale : CostScale κ) (price : γ → κ) : Prop where
  less : ∀ a b, ∃ below, scale.less (price a) (price b) = .ok below
  judge : ∀ a b t, ∃ verdict, scale.judge (price a) (price b) t = .ok verdict
  real : ∀ a, ∃ x, scale.real (price a) = .ok x
  ordered : ∀ contents : List γ, scale.Orders (contents.map price)

/-- Prices that are doubles are compared as long as all of them are numbers. -/
theorem CostScale.doubles_compares {price : γ → Float} (numbers : ∀ c, (price c).isNaN = false) :
    CostScale.doubles.Compares price where
  less _ _ := ⟨_, rfl⟩
  judge _ _ _ := doubles_judge _ _ _
  real _ := ⟨_, rfl⟩
  ordered contents := by
    refine doubles_orders fun x hx => ?_
    obtain ⟨c, -, rfl⟩ := List.mem_map.mp hx
    exact numbers c

/-! ### The sums of the moves -/

/-- What the one object holds after that many moves. -/
def running [AddMonoid γ] (moves : Nat → γ) (first : γ) (n : Nat) : γ :=
  first + ((List.range n).map moves).sum

section

variable [AddMonoid γ] (moves : Nat → γ) (first : γ)

@[simp] theorem running_zero : running moves first 0 = first := by
  simp [running]

theorem running_succ (n : Nat) : running moves first (n + 1) = running moves first n + moves n := by
  simp [running, List.range_succ, add_assoc]

end

namespace Search

variable {S : Search ω σ κ} {O : Objects ω σ γ} [AddMonoid γ] {moves : Nat → γ} {price : γ → κ}

variable (O moves) in
/-- The initial object `given`, and the object `x` on which all neighbors are made, after `n` of
them. -/
structure Workspace (given : σ) (first : γ) (x : σ) (n : Nat) (w : Watched ω σ κ) : Prop where
  initial : O.content w.world given = some first
  current : O.content w.world x = some (running moves first n)
  apart : x ≠ given
  made : O.made w.world = n
  /-- The neighbors were made of the sums, one after the other. -/
  seen : O.seen w.world = (List.range n).map (running moves first)
  /-- All neighbors were made of the one object, and are this object. -/
  edited : ∀ parent candidate, Call.generated parent candidate ∈ w.calls →
    parent = x ∧ candidate = x

section

variable {given x : σ} {first : γ} {n : Nat} {w w' : Watched ω σ κ}

/-- Where every object holds what it held and no neighbor has been made, the workspace is the
same. -/
theorem Workspace.keep (h : Workspace O moves given first x n w) (kept : O.Kept w.world w'.world)
    (calls : ∀ parent candidate, Call.generated parent candidate ∈ w'.calls →
      Call.generated parent candidate ∈ w.calls) : Workspace O moves given first x n w' where
  initial := kept.content h.initial
  current := kept.content h.current
  apart := h.apart
  made := kept.made.trans h.made
  seen := kept.seen.trans h.seen
  edited parent candidate made := h.edited parent candidate (calls parent candidate made)

/-- A neighbor is made by one move more, and no other object is changed. -/
theorem Workspace.edit (edits : S.EditsInPlace O moves price)
    (h : Workspace O moves given first x n w) :
    ∃ w₁, S.watched.neighbor x w = .ok x w₁ ∧ Workspace O moves given first x (n + 1) w₁ ∧
      ∀ y, y ≠ x → O.content w₁.world y = O.content w.world y := by
  obtain ⟨v, neighbor, changed, others, made, seen⟩ := edits.neighbor h.current
  refine ⟨⟨v, w.calls ++ [.generated x x]⟩, watch_ok_iff.mpr ⟨neighbor, rfl⟩, ?_, others⟩
  refine ⟨(others given (Ne.symm h.apart)).trans h.initial, ?_, h.apart,
    made.trans (congrArg (· + 1) h.made), ?_, ?_⟩
  · rw [changed, h.made, running_succ]
  · rw [seen, h.seen, List.range_succ, List.map_append]
    rfl
  · intro parent candidate made
    rcases List.mem_append.mp made with made | made
    · exact h.edited parent candidate made
    · cases List.mem_singleton.mp made
      exact ⟨rfl, rfl⟩

end

/-! ### One trial -/

variable (S O moves price) in
/-- Where a search that edits in place stands: the best state is a third object, which holds the sum
at the place of the leading cost. -/
structure InPlace (given : σ) (first : γ) (s : Standing σ κ) (w : Watched ω σ κ) : Prop where
  workspace : Workspace O moves given first s.current s.trials w
  priced : ∃ c, s.currentCost = price c
  alone : s.best ≠ given ∧ s.best ≠ s.current
  best : ∃ place changes,
    S.scale.Leads ((List.range (s.trials + 1)).map fun k => price (running moves first k)) place
    s.bestCost changes ∧ O.content w.world s.best = some (running moves first place)

section

variable {given : σ} {first : γ}

/-- The best cost is the price of a sum. -/
theorem InPlace.bestCost_priced {s : Standing σ κ} {w : Watched ω σ κ}
    (h : InPlace S O moves price given first s w) : ∃ c, s.bestCost = price c := by
  obtain ⟨place, changes, leads, -⟩ := h.best
  obtain ⟨k, -, cost⟩ := List.mem_map.mp leads.mem
  exact ⟨_, cost.symm⟩

/-- A candidate that is the current state stays the current state. -/
theorem after_current_self (s : Standing σ κ) (moves : Bool) (k : κ) :
    (s.after moves s.current k).current = s.current := by
  cases moves <;> rfl

theorem after_trials (s : Standing σ κ) (moves : Bool) (candidate : σ) (k : κ) :
    (s.after moves candidate k).trials = s.trials + 1 := by
  cases moves <;> rfl

theorem start_in_place (edits : S.EditsInPlace O moves price) {w : ω}
    (held : O.content w given = some first) (unmade : O.made w = 0) (unseen : O.seen w = []) :
    ∃ s w', S.watched.start given ⟨w, []⟩ = .ok s w' ∧
      InPlace S O moves price given first s w' := by
  obtain ⟨x, w₁, copied, new, holds₁, kept₁⟩ := edits.copy held
  have held₁ := kept₁.content held
  obtain ⟨w₂, priced, kept₂⟩ := edits.cost held₁
  obtain ⟨best, w₃, copied', new', holds₃, kept₃⟩ := edits.copy (kept₂.content held₁)
  have kept := kept₁.trans (kept₂.trans kept₃)
  let calls : List (Call σ κ) := [.copied given x, .priced given (price first), .copied given best]
  refine ⟨⟨0, x, price first, best, price first⟩, ⟨w₃, calls⟩, S.watched.start_ok_iff.mpr ?_,
    ?_, ⟨first, rfl⟩,
    ⟨O.ne_of_new new' (kept₂.content held₁), O.ne_of_new new' (kept₂.content holds₁)⟩, 0, 0, ?_, ?_⟩
  · exact ⟨x, price first, best, ⟨w₁, calls.take 1⟩, ⟨w₂, calls.take 2⟩,
      watch_ok_iff.mpr ⟨copied, rfl⟩,
      watch_ok_iff.mpr ⟨priced, rfl⟩, watch_ok_iff.mpr ⟨copied', rfl⟩, rfl⟩
  · refine ⟨kept.content held, ?_, O.ne_of_new new held, kept.made.trans unmade,
      kept.seen.trans unseen, by simp [calls]⟩
    rw [running_zero]
    exact (kept₂.trans kept₃).content holds₁
  · simpa using CostScale.Leads.first (price first)
  · rw [running_zero]
    exact holds₃

/-- Deciding makes no neighbor, and every object holds what it held. -/
theorem decideMove_keeps (edits : S.EditsInPlace O moves price) {temperature : Float}
    {current new : κ} {move : Bool × Status} {w w' : Watched ω σ κ}
    (h : S.watched.decideMove temperature current new w = .ok move w') :
    O.Kept w.world w'.world ∧ ∀ parent candidate,
      Call.generated parent candidate ∈ w'.calls → Call.generated parent candidate ∈ w.calls := by
  rcases S.watched.decideMove_ok h with rfl | ⟨u, drawn⟩
  · exact ⟨.refl _, fun _ _ => id⟩
  · obtain ⟨drawn, calls⟩ := watch_ok_iff.mp drawn
    obtain ⟨_, _, drawn', kept⟩ := edits.draw w.world
    rw [drawn] at drawn'
    cases drawn'
    exact ⟨kept, by simp [calls]⟩

/-- The candidate of a trial is the current state with one move more, and the best state holds what
it held. -/
theorem candidate_in_place (edits : S.EditsInPlace O moves price)
    (compares : S.scale.Compares price) {s : Standing σ κ} {w : Watched ω σ κ}
    (h : InPlace S O moves price given first s w) (temperature : Float) :
    ∃ w₁ w₂ w₃ move, S.watched.neighbor s.current w = .ok s.current w₁ ∧
      S.watched.cost s.current w₁ = .ok (price (running moves first (s.trials + 1))) w₂ ∧
      S.watched.decideMove temperature s.currentCost
        (price (running moves first (s.trials + 1))) w₂ = .ok move w₃ ∧
      Workspace O moves given first s.current (s.trials + 1) w₃ ∧
      ∀ c, O.content w.world s.best = some c → O.content w₃.world s.best = some c := by
  obtain ⟨c, hc⟩ := h.priced
  obtain ⟨w₁, neighbor, edited, others⟩ := h.workspace.edit edits
  obtain ⟨v, cost, kept₂⟩ := edits.cost edited.current
  let k := price (running moves first (s.trials + 1))
  have cost : S.watched.cost s.current w₁ = .ok k ⟨v, w₁.calls ++ [.priced s.current k]⟩ :=
    watch_ok_iff.mpr ⟨cost, rfl⟩
  obtain ⟨u, v', drawn, -⟩ := edits.draw v
  obtain ⟨move, w₃, decided⟩ : ∃ move w₃, S.watched.decideMove temperature s.currentCost k
      ⟨v, w₁.calls ++ [.priced s.current k]⟩ = .ok move w₃ := by
    refine decideMove_answers ?_ ⟨u, ⟨v', _⟩, watch_ok_iff.mpr ⟨drawn, rfl⟩⟩ ?_
    · exact hc ▸ compares.judge c _ temperature
    · exact hc ▸ compares.less _ c
  obtain ⟨kept₃, calls⟩ := decideMove_keeps edits decided
  have kept := kept₂.trans kept₃
  refine ⟨w₁, _, w₃, move, neighbor, cost, decided, edited.keep kept (by simpa using calls),
    fun c held => ?_⟩
  exact kept.content ((others s.best h.alone.2).trans held)

/-- **One trial of a search that edits in place.** -/
theorem attempted_in_place (edits : S.EditsInPlace O moves price)
    (compares : S.scale.Compares price) {s : Standing σ κ} {w : Watched ω σ κ}
    (h : InPlace S O moves price given first s w) (temperature : Float) :
    ∃ status s' w', S.watched.Attempted temperature s w status s' w' ∧
      InPlace S O moves price given first s' w' := by
  obtain ⟨place, changes, leads, best⟩ := h.best
  obtain ⟨b, hb⟩ := h.bestCost_priced
  obtain ⟨w₁, w₂, w₃, ⟨goes, status⟩, neighbor, cost, move, workspace, keeps⟩ :=
    candidate_in_place edits compares h temperature
  have prices : (List.range (s.trials + 1 + 1)).map (fun k => price (running moves first k)) =
      (List.range (s.trials + 1)).map (fun k => price (running moves first k)) ++
        [price (running moves first (s.trials + 1))] := by
    rw [List.range_succ, List.map_append]
    rfl
  have priced : ∃ c, (s.after goes s.current
    (price (running moves first (s.trials + 1)))).currentCost = price c := by
    cases goes with
    | true => exact ⟨_, rfl⟩
    | false => exact h.priced
  obtain ⟨below, less⟩ := compares.less (running moves first (s.trials + 1)) b
  rw [← hb] at less
  cases below with
  | true =>
      -- the best state is a new object, so later moves leave it alone
      obtain ⟨x, v', copy, new, holds, kept₄⟩ := edits.copy workspace.current
      have copy : S.watched.copy s.current w₃ = .ok x ⟨v', w₃.calls ++ [.copied s.current x]⟩ :=
        watch_ok_iff.mpr ⟨copy, rfl⟩
      refine ⟨_, _, _, .better neighbor cost move less copy, ?_, priced,
        ⟨O.ne_of_new new workspace.initial, ?_⟩, s.trials + 1, changes + 1, ?_, holds⟩
      · simp only [after_current_self, after_trials]
        exact workspace.keep kept₄ (by simp)
      · simp only [after_current_self]
        exact O.ne_of_new new workspace.current
      · simp only [after_trials, prices]
        simpa using leads.take less
  | false =>
      refine ⟨_, _, _, .other neighbor cost move less, ?_, priced, ?_, place, changes, ?_, ?_⟩
      · rw [after_current_self, after_trials]
        exact workspace
      · rw [Standing.after_best, after_current_self]
        exact h.alone
      · rw [after_trials, prices, Standing.after_bestCost]
        exact leads.keep less
      · rw [Standing.after_best]
        exact keeps _ best

end

/-! ### The result -/

variable (S O moves price) in
/-- How a search that edits in place ends, with the calls it made. -/
structure EndsInPlace (given : σ) (first : γ) (s : Standing σ κ) (w : ω) (calls : List (Call σ κ)) :
    Prop where
  /-- The initial object holds what it held. -/
  initial : O.content w given = some first
  /-- Each neighbor was made of the sum of all moves before it, whatever was decided in between. -/
  seen : O.seen w = (List.range s.trials).map (running moves first)
  edited : ∀ parent candidate, Call.generated parent candidate ∈ calls → parent = s.current ∧
    candidate = s.current
  apart : s.current ≠ given ∧ s.best ≠ given ∧ s.best ≠ s.current
  /-- The object that was changed holds the sum of all moves. -/
  current : O.content w s.current = some (running moves first s.trials)
  /-- The best state holds the first of the cheapest sums. -/
  best : ∃ place ≤ s.trials, O.content w s.best = some (running moves first place) ∧
    price (running moves first place) = s.bestCost ∧
    (∀ k ≤ s.trials, ¬ S.scale.isBelow (price (running moves first k)) s.bestCost) ∧
    ∀ k < place, S.scale.isBelow s.bestCost (price (running moves first k))

theorem InPlace.ends (compares : S.scale.Compares price) {given : σ} {first : γ} {s : Standing σ κ}
    {w : Watched ω σ κ} (h : InPlace S O moves price given first s w) :
    EndsInPlace S O moves price given first s w.world w.calls := by
  obtain ⟨place, changes, leads, best⟩ := h.best
  have ordered :
      S.scale.Orders ((List.range (s.trials + 1)).map fun k => price (running moves first k)) := by
    have := compares.ordered ((List.range (s.trials + 1)).map (running moves first))
    rwa [List.map_map] at this
  have inside : place < s.trials + 1 := by simpa using leads.place_lt
  have led := leads.getElem?
  rw [List.getElem?_map, List.getElem?_range inside] at led
  refine ⟨h.workspace.initial, h.workspace.seen, h.workspace.edited, ⟨h.workspace.apart, h.alone⟩,
    h.workspace.current,
    place, Nat.le_of_lt_succ inside, best, Option.some.inj led, fun k hk => ?_, fun k hk => ?_⟩
  · exact leads.not_below ordered
      _ (List.mem_map_of_mem (List.mem_range.mpr (Nat.lt_succ_of_le hk)))
  · refine leads.below_before ordered _ ?_
    rw [← List.map_take, List.take_range, Nat.min_eq_left (Nat.le_of_lt inside)]
    exact List.mem_map_of_mem (List.mem_range.mpr hk)

/-- **A search that edits in place keeps its result and its input.**  With a finite schedule it
ends.  The initial object is as it was, and the best state is an object of its own: it holds the
first of the cheapest sums and costs the best cost, though all moves were made on one object behind
it. -/
theorem run_in_place (edits : S.EditsInPlace O moves price) (compares : S.scale.Compares price)
    (ends : S.options.schedule.Ends) {given : σ} {first : γ} {p : Progress ω}
    (held : O.content p.world given = some first) (unmade : O.made p.world = 0)
    (unseen : O.seen p.world = []) :
    ∃ s p', S.run given p = .ok s p' ∧
      EndsInPlace S O moves price given first s p'.world (S.journal given p) := by
  have step : ∀ {level temperature s q}, InPlace S O moves price given first s q.world →
      ∃ s' q', S.watched.attempt level temperature s q = .ok s' q' ∧
        InPlace S O moves price given first s' q'.world := by
    intro level temperature s q h
    obtain ⟨status, s', w', attempted, h'⟩ := attempted_in_place edits compares h temperature
    obtain ⟨c, hc⟩ := h'.priced
    obtain ⟨b, hb⟩ := h'.bestCost_priced
    obtain ⟨log, answered⟩ := attempt_of_attempted level attempted (hc ▸ compares.real c)
      (hb ▸ compares.real b)
    exact ⟨s', ⟨w', log⟩, answered, h'⟩
  have ends : S.watched.options.schedule.Ends := ends
  obtain ⟨s, q, watched, h⟩ :=
    run_answers (p := unopened p) ends (start_in_place edits held unmade unseen) step
  obtain ⟨run, journal⟩ := run_of_watched watched
  refine ⟨s, unwatched q, run, ?_⟩
  rw [journal]
  exact h.ends compares

end Search

/-! ### Scripts -/

namespace Script

/-- What can be seen of the cells of a script. -/
def objects : Objects Journal Nat Int where
  content j cell := j.cells[cell]?
  made j := j.neighborCalls
  seen j := j.parents.toList

/-- The search that follows a script, except that an integer costs a double given by `price`. -/
def priced (s : Script) (price : Int → Float) (options : Options) (logging : Bool) :
    Search Journal Nat Float where
  copy := s.copy
  neighbor := s.neighbor
  cost cell := do return price (← content cell)
  scale := .doubles
  draw := s.draw
  options := options
  logging := logging

theorem held_of_content {j : Journal} {cell : Nat} {x : Int} (h : objects.content j cell = some x) :
    held j cell = x :=
  getD_of_holds h

/-- A script that moves in place and has no call that fails edits its cells in place, whatever its
contents cost. -/
theorem edits_in_place {s : Script} (inPlace : s.moving = .inPlace) (reliable : s.failing = none)
    (price : Int → Float) (options : Options) (logging : Bool) :
    (s.priced price options logging).EditsInPlace objects (fun k => cyclic s.moves k 1) price where
  copy {cell j x} h := by
    have answered : s.copy cell j = _ := copy_eq s j cell
    rw [reliable, if_neg (by simp), held_of_content h] at answered
    refine ⟨_, _, answered, ?_, ?_, ⟨fun held => keeps_of_push rfl _ _ held, rfl, rfl⟩⟩
    · simp [objects]
    · exact holds_of_push rfl
  neighbor {cell j x} h := by
    have answered : s.neighbor cell j = _ := neighbor_eq s j cell
    rw [reliable, if_neg (by simp), moved, inPlace, held_of_content h] at answered
    refine ⟨_, answered, ?_, fun other apart => ?_, rfl, ?_⟩
    · exact Array.getElem?_setIfInBounds_self_of_lt (Array.getElem?_eq_some_iff.mp h).1
    · exact Array.getElem?_setIfInBounds_ne (Ne.symm apart)
    · simp [objects]
  cost {cell j x} h := by
    refine ⟨j, ?_, .refl j⟩
    rw [← held_of_content h]
    rfl
  draw j := ⟨_, _, rfl, fun h => h, rfl, rfl⟩

end Script

namespace Search

/-- Five sums of moves, of which the third alone is cheap. -/
def inPlaceWalk : Search Journal Nat Float :=
  Script.priced { moving := .inPlace, moves := #[2, -3, 1], costs := #[], uniforms := #[0.5],
                  failing := none }
    (fun x => if x < 0 then 1 else 5)
    { initialTemperature := 2, coolingFactor := 0.5, minimumTemperature := 1,
      swapsPerTemperature := 4, logPeriod := 1,
      extras := [] }
    true

theorem inPlaceWalk_in_place :
    ∃ s p', inPlaceWalk.run 0 ⟨{ cells := #[0] }, #[]⟩ = .ok s p' ∧
      EndsInPlace inPlaceWalk Script.objects (fun k => cyclic #[2, -3, 1] k 1)
        (fun x => if x < 0 then 1 else 5) 0 0 s
        p'.world (inPlaceWalk.journal 0 ⟨{ cells := #[0] }, #[]⟩) := by
  have ends : inPlaceWalk.options.schedule.Ends := by
    have first : (2 : Float) > 1 := by decide +kernel
    have second : ¬ (2 * 0.5 : Float) > 1 := by decide +kernel
    refine ⟨[2], .more ?_ rfl (.stop ?_)⟩
    · exact congrArg Except.ok (decide_eq_true first)
    · exact congrArg Except.ok (decide_eq_false second)
  have numbers : ∀ x : Int, (if x < 0 then 1 else 5 : Float).isNaN = false := by
    intro x
    split <;> decide +kernel
  exact run_in_place (Script.edits_in_place rfl rfl _ _ _)
    (CostScale.doubles_compares numbers) ends rfl rfl rfl

end Search

end Annealing
