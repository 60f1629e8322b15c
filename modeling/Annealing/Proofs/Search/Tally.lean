import Annealing.Proofs.Search.Calls
import Annealing.Proofs.Search.Journal
import Annealing.Proofs.Search.Leader

/-!
# Search — how often a scripted run calls its functions

Every trial makes one neighbor and asks for one cost.  It makes a copy only when the lead changes.
So the number of copies made up to a trial depends on all costs before it, and the trial at which
the `k`-th copy is made is found among the renewals of the list of costs.

* `Script.Tally`: the calls made where a run stands, by its trials and by the lead among its costs.
  The start establishes it (`Tally.start`) and a trial keeps it (`Tally.step`).
* `Script.firstLost`: the first trial that does not come to its end when a certain call fails.
* `Tally.firstLost_eq`: the trial in which a call is made is the one that `firstLost` says.
-/

namespace Annealing.Script

variable {s : Script} {options : Options} {logging : Bool}

/-- The calls made where a run stands. -/
structure Tally (st : Standing Nat Value) (w : Watched Journal Nat Value) : Prop where
  neighbors : w.world.calls .neighbor = st.trials
  costs : w.world.calls .cost = st.trials + 1
  /-- The costs that occurred are those of the initial state and of one candidate a trial. -/
  length : (Journal.costs w.calls).length = st.trials + 1
  /-- Two copies are made at the start and one at every change of the lead. -/
  copies :
    ∃ place changes, CostScale.values.Leads (Journal.costs w.calls) place st.bestCost changes ∧
    w.world.calls .copy = changes + 2

/-! ### Counting -/

/-- The calls of a trial up to the decision. -/
structure Considered (w w' : Watched Journal Nat Value) (k : Value) : Prop where
  neighbors : w'.world.calls .neighbor = w.world.calls .neighbor + 1
  costs : w'.world.calls .cost = w.world.calls .cost + 1
  copies : w'.world.calls .copy = w.world.calls .copy
  answers : Journal.costs w'.calls = Journal.costs w.calls ++ [k]

theorem considered {st : Standing Nat Value} {w w₁ w₂ w₃ : Watched Journal Nat Value}
    {temperature : Float} {candidate : Nat} {k : Value} {move : Bool × Status}
    (neighbor : (s.search options logging).watched.neighbor st.current w = .ok candidate w₁)
    (cost : (s.search options logging).watched.cost candidate w₁ = .ok k w₂)
    (decide : (s.search options logging).watched.decideMove temperature st.currentCost k w₂ =
      .ok move w₃) :
    Considered w w₃ k := by
  have generated := (neighbor_called (Search.watch_ok_iff.mp neighbor).1).calls
  have priced := (cost_called (Search.watch_ok_iff.mp cost).1).calls
  have decided : ∀ r, w₃.world.calls r = w₂.world.calls r := by
    rcases (s.search options logging).watched.decideMove_ok decide with rfl | ⟨u, hu⟩
    · exact fun _ => rfl
    · have hu : Search.watch s.draw .drew w₂ = .ok u w₃ := hu
      obtain ⟨n, hn⟩ := draw_ok (Search.watch_ok_iff.mp hu).1
      intro r
      rw [hn]
      cases r <;> rfl
  have counted : ∀ r, w₃.world.calls r =
      w.world.calls r + (if r = .neighbor then 1 else 0) + if r = .cost then 1 else 0 := by
    intro r
    rw [decided, priced, generated]
  exact ⟨counted .neighbor, counted .cost, counted .copy,
    (s.search options logging).considered_costs neighbor cost decide⟩

/-- What a trial adds to the calls.  There is one more copy exactly if its cost is below the best
one so far. -/
structure Added (st st' : Standing Nat Value) (w w' : Watched Journal Nat Value) : Prop where
  trials : st'.trials = st.trials + 1
  neighbors : w'.world.calls .neighbor = w.world.calls .neighbor + 1
  costs : w'.world.calls .cost = w.world.calls .cost + 1
  answer : ∃ k, Journal.costs w'.calls = Journal.costs w.calls ++ [k] ∧
    (CostScale.values.less k st.bestCost = .ok true ∧ st'.bestCost = k ∧
        w'.world.calls .copy = w.world.calls .copy + 1 ∨
      CostScale.values.less k st.bestCost = .ok false ∧ st'.bestCost = st.bestCost ∧
        w'.world.calls .copy = w.world.calls .copy)

variable {temperature : Float} {st st' : Standing Nat Value}
  {w w' : Watched Journal Nat Value} {status : Status}

theorem added
    (attempted : (s.search options logging).watched.Attempted temperature st w status st' w') :
    Added st st' w w' := by
  cases attempted with
  | @better candidate best k moves _ w₁ w₂ w₃ _ neighbor cost move less copy =>
      have before := considered neighbor cost move
      obtain ⟨hcopy, calls⟩ := Search.watch_ok_iff.mp copy
      have counted := (copy_called hcopy).calls
      refine ⟨by cases moves <;> rfl, ?_, ?_, k, ?_, .inl ⟨less, rfl, ?_⟩⟩
      · exact (counted .neighbor).trans before.neighbors
      · exact (counted .cost).trans before.costs
      · rw [calls, Journal.costs_append, before.answers]
        exact List.append_nil _
      · rw [counted .copy, before.copies]
        rfl
  | @other candidate k moves _ w₁ w₂ _ neighbor cost move less =>
      have before := considered neighbor cost move
      exact ⟨by cases moves <;> rfl, before.neighbors, before.costs, k, before.answers,
        .inr ⟨less, Standing.after_bestCost .., before.copies⟩⟩

/-! ### The tally of a run -/

namespace Tally

/-- The start makes two copies and asks for one cost. -/
theorem start_calls {cells : Array Int}
    (h : (s.search options logging).watched.start 0 ⟨{ cells }, []⟩ = .ok st w) :
    st.trials = 0 ∧ Journal.costs w.calls = [st.bestCost] ∧ w.world.calls .neighbor = 0 ∧
      w.world.calls .cost = 1 ∧ w.world.calls .copy = 2 := by
  obtain ⟨current, k, best, w₁, w₂, h₁, h₂, h₃, rfl⟩ :=
    (s.search options logging).watched.start_ok_iff.mp h
  obtain ⟨h₁, l₁⟩ := Search.watch_ok_iff.mp h₁
  obtain ⟨h₂, l₂⟩ := Search.watch_ok_iff.mp h₂
  obtain ⟨h₃, l₃⟩ := Search.watch_ok_iff.mp h₃
  have counted : ∀ r, w.world.calls r = Journal.calls { cells } r + (if r = .copy then 1 else 0) +
      (if r = .cost then 1 else 0) + if r = .copy then 1 else 0 := by
    intro r
    rw [(copy_called h₃).calls, (cost_called h₂).calls, (copy_called h₁).calls]
  refine ⟨rfl, ?_, counted .neighbor, counted .cost, counted .copy⟩
  rw [l₃, l₂, l₁]
  rfl

theorem start {cells : Array Int}
    (h : (s.search options logging).watched.start 0 ⟨{ cells }, []⟩ = .ok st w) :
    Tally st w := by
  obtain ⟨trials, costs, neighborCalls, costCalls, copyCalls⟩ := start_calls h
  refine ⟨by rw [neighborCalls, trials], by rw [costCalls, trials],
    by rw [costs, trials]; rfl, 0, 0, ?_, copyCalls⟩
  rw [costs]
  exact .first _

/-- **A trial keeps the tally.** -/
theorem step (h : Tally st w) (added : Added st st' w w') : Tally st' w' := by
  obtain ⟨place, changes, leads, copies⟩ := h.copies
  obtain ⟨k, costs, lead⟩ := added.answer
  refine ⟨?_, ?_, ?_, ?_⟩
  · rw [added.neighbors, h.neighbors, added.trials]
  · rw [added.costs, h.costs, added.trials]
  · rw [costs, List.length_append, h.length, added.trials]
    rfl
  · rw [costs]
    rcases lead with ⟨less, best, copied⟩ | ⟨less, best, copied⟩
    · rw [best, copied, copies]
      exact ⟨_, changes + 1, leads.take less, Nat.add_right_comm _ _ _⟩
    · rw [best, copied, copies]
      exact ⟨place, changes, leads.keep less, rfl⟩

end Tally

/-! ### The trial of a call -/

/-- The number of the first trial that does not come to its end when the `k`-th call of a function
fails, zero if the search does not even start, for a run with these costs. -/
def firstLost (costs : List Value) : Role → Nat → Option Nat
  | .neighbor, k => some k
  | .cost, k => some (k - 1)
  | .copy, k => if k ≤ 2 then some 0 else (CostScale.values.renewals costs)[k - 3]?

/-- Costs of later trials make no difference. -/
theorem firstLost_append {costs : List Value} {role : Role} {k trial : Nat}
    (h : firstLost costs role k = some trial) (more : List Value) :
    firstLost (costs ++ more) role k = some trial := by
  cases role with
  | neighbor | cost => exact h
  | copy =>
      simp only [firstLost] at h ⊢
      by_cases early : k ≤ 2
      · rwa [if_pos early] at h ⊢
      · rw [if_neg early] at h ⊢
        obtain ⟨rest, hrest⟩ := CostScale.values.renewals_append costs more
        rw [← hrest, List.getElem?_append_left (List.getElem?_eq_some_iff.mp h).1, h]

/-- A call that the start makes is lost with the whole run. -/
theorem Tally.firstLost_start {cells : Array Int} {role : Role} {k : Nat}
    (h : (s.search options logging).watched.start 0 ⟨{ cells }, []⟩ = .ok st w) (positive : 0 < k)
    (reached : k ≤ w.world.calls role) (costs : List Value) : firstLost costs role k = some 0 := by
  obtain ⟨-, -, neighborCalls, costCalls, copyCalls⟩ := start_calls h
  cases role with
  | neighbor => omega
  | cost =>
      obtain rfl : k = 1 := by omega
      rfl
  | copy => exact if_pos (reached.trans_eq copyCalls)

/-- **The trial in which a call is made is the first one that its failure loses.** -/
theorem Tally.firstLost_eq {role : Role} {k : Nat} (h : Tally st w) (added : Added st st' w w')
    (below : w.world.calls role < k) (reached : k ≤ w'.world.calls role) :
    firstLost (Journal.costs w'.calls) role k = some st'.trials := by
  cases role with
  | neighbor =>
      rw [h.neighbors] at below
      rw [added.neighbors, h.neighbors] at reached
      rw [firstLost, added.trials, Nat.le_antisymm reached below]
  | cost =>
      rw [h.costs] at below
      rw [added.costs, h.costs] at reached
      rw [firstLost, added.trials, Nat.le_antisymm reached below]
      rfl
  | copy =>
      obtain ⟨place, changes, leads, copies⟩ := h.copies
      obtain ⟨k₀, costs, ⟨less, -, copied⟩ | ⟨-, -, copied⟩⟩ := added.answer
      · -- the new cost is the renewal behind the `changes` ones before it
        obtain rfl : k = changes + 3 := by omega
        have renewal :
            (CostScale.values.renewals (Journal.costs w'.calls))[changes]? = some st'.trials := by
          rw [costs, leads.renewals_concat, if_pos (CostScale.isBelow_of_less less),
            ← leads.renewals_length, List.getElem?_concat_length, h.length, added.trials]
        simpa only [firstLost, Nat.add_sub_cancel, show ¬ changes + 3 ≤ 2 by omega, if_false]
          using renewal
      · omega

end Annealing.Script
