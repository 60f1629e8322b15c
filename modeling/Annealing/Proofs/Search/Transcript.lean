import Annealing.Proofs.Search.Course
import Annealing.Proofs.Search.Journal
import Annealing.Proofs.Search.Leader

/-!
# Search — a trial by its calls

What a trial makes of the costs can be told from the calls it makes, without the world they are made
in.  `Search.Noted` relates the standings before and after a trial, what came of it, and its calls.
It has one constructor for a candidate below the best cost so far and one for any other, as
`Search.Attempted` has, and says in addition how the acceptance rule was settled (`Search.Decided`).

* `Search.attempted_noted`: the calls that a trial adds to the journal.
* `Search.Noted.parts`: the decision of a trial, its cost and its draws, and the comparison with the
  best cost.
* `Search.run_noted`: what the start establishes and every trial keeps of the standing and the
  journal holds where a run ends.
* `Search.run_parts`: a run that answers is its start and a course, and the journal is kept along.
* `Search.run_leads`: the best cost is the leader of all costs that occurred, whatever the strategy.
-/

namespace Annealing

variable {ω σ κ : Type}

namespace Journal

/-- The numbers drawn, in their order. -/
def drawn (calls : List (Call σ κ)) : List Float :=
  calls.filterMap fun
    | .drew u => some u
    | _ => none

section

variable (calls more : List (Call σ κ))

@[simp] theorem drawn_append : drawn (calls ++ more) = drawn calls ++ drawn more :=
  List.filterMap_append

@[simp] theorem drawn_drew (draws : List Float) :
    drawn (draws.map (Call.drew : Float → Call σ κ)) = draws := by
  simp [drawn, List.filterMap_map]

theorem costs_prefix {calls later : List (Call σ κ)} (h : calls <+: later) :
    costs calls <+: costs later :=
  h.filterMap _

end

end Journal

/-- How a verdict is settled: whether the search goes on from the candidate, and the numbers drawn
for that. -/
inductive Verdict.Settled : Verdict → Bool → List Float → Prop where
  | accepted : Settled .accepted true []
  | rejected : Settled .rejected false []
  | chance (probability u : Float) : Settled (.chance probability) (probability > u) [u]

namespace Search

variable (S : Search ω σ κ)

/-- What is decided about a candidate, with the numbers drawn for that. -/
inductive Decided (temperature : Float) (current new : κ) : Bool → Status → List Float → Prop where
  | stays {verdict : Verdict} {draws : List Float}
      (judged : S.scale.judge current new temperature = .ok verdict)
      (settled : verdict.Settled false draws) : Decided temperature current new false .reject draws
  | goes {verdict : Verdict} {draws : List Float} {better : Bool}
      (judged : S.scale.judge current new temperature = .ok verdict)
      (settled : verdict.Settled true draws)
      (less : S.scale.less new current = .ok better) :
      Decided temperature current new true (if better then .improve else .accept) draws

/-- A trial, told by its calls. -/
inductive Noted (temperature : Float) (s : Standing σ κ) :
    Status → Standing σ κ → List (Call σ κ) → Prop where
  | better {candidate best : σ} {k : κ} {moves : Bool} {status : Status} {draws : List Float}
      (decided : S.Decided temperature s.currentCost k moves status draws)
      (less : S.scale.less k s.bestCost = .ok true) :
      Noted temperature s .best { s.after moves candidate k with best, bestCost := k }
        ([.generated s.current candidate, .priced candidate k] ++
          draws.map .drew ++ [.copied candidate best])
  | other {candidate : σ} {k : κ} {moves : Bool} {status : Status} {draws : List Float}
      (decided : S.Decided temperature s.currentCost k moves status draws)
      (less : S.scale.less k s.bestCost = .ok false) :
      Noted temperature s status (s.after moves candidate k)
        ([.generated s.current candidate, .priced candidate k] ++ draws.map .drew)

/-! ### What is noted of a trial -/

theorem settle_noted {verdict : Verdict} {moves : Bool} {w w' : Watched ω σ κ}
    (h : verdict.settle S.watched.draw w = .ok moves w') :
    ∃ draws, verdict.Settled moves draws ∧ w'.calls = w.calls ++ draws.map .drew := by
  cases verdict with
  | accepted =>
      cases h
      exact ⟨[], .accepted, (List.append_nil _).symm⟩
  | rejected =>
      cases h
      exact ⟨[], .rejected, (List.append_nil _).symm⟩
  | chance probability =>
      obtain ⟨u, w₁, drawn, h⟩ := Effect.bind_ok_iff.mp h
      cases h
      exact ⟨[u], .chance probability u, (watch_ok_iff.mp drawn).2⟩

theorem decideMove_noted {temperature : Float} {current new : κ} {moves : Bool} {status : Status}
    {w w' : Watched ω σ κ}
    (h : S.watched.decideMove temperature current new w = .ok (moves, status) w') :
    ∃ draws, S.Decided temperature current new moves status draws ∧
      w'.calls = w.calls ++ draws.map .drew := by
  obtain ⟨verdict, w₁, h₁, h⟩ := Effect.bind_ok_iff.mp h
  obtain ⟨judged, rfl⟩ := Effect.ofExcept_ok_iff.mp h₁
  obtain ⟨goes, w₂, h₂, h⟩ := Effect.bind_ok_iff.mp h
  obtain ⟨draws, settled, calls⟩ := S.settle_noted h₂
  cases goes with
  | true =>
      obtain ⟨better, w₃, h₃, h⟩ := Effect.bind_ok_iff.mp h
      obtain ⟨less, rfl⟩ := Effect.ofExcept_ok_iff.mp h₃
      cases h
      exact ⟨draws, .goes judged settled less, calls⟩
  | false =>
      cases h
      exact ⟨draws, .stays judged settled, calls⟩

/-- **The calls that a trial adds to the journal.** -/
theorem attempted_noted {temperature : Float} {s s' : Standing σ κ} {w w' : Watched ω σ κ}
    {status : Status} (h : S.watched.Attempted temperature s w status s' w') :
    ∃ calls, S.Noted temperature s status s' calls ∧ w'.calls = w.calls ++ calls := by
  cases h with
  | better neighbor cost move less copy =>
      obtain ⟨-, generated⟩ := watch_ok_iff.mp neighbor
      obtain ⟨-, priced⟩ := watch_ok_iff.mp cost
      obtain ⟨draws, decided, drawn⟩ := S.decideMove_noted move
      obtain ⟨-, copied⟩ := watch_ok_iff.mp copy
      refine ⟨_, .better decided less, ?_⟩
      rw [copied, drawn, priced, generated]
      simp only [List.append_assoc, List.cons_append, List.nil_append]
  | other neighbor cost move less =>
      obtain ⟨-, generated⟩ := watch_ok_iff.mp neighbor
      obtain ⟨-, priced⟩ := watch_ok_iff.mp cost
      obtain ⟨draws, decided, drawn⟩ := S.decideMove_noted move
      refine ⟨_, .other decided less, ?_⟩
      rw [drawn, priced, generated]
      simp only [List.append_assoc, List.cons_append, List.nil_append]

section

variable {S} {temperature : Float} {s s' : Standing σ κ} {status : Status} {calls : List (Call σ κ)}

theorem Noted.trials (h : S.Noted temperature s status s' calls) : s'.trials = s.trials + 1 := by
  cases h with
  | @better _ _ _ moves => cases moves <;> rfl
  | @other _ _ moves => cases moves <;> rfl

/-- A trial makes one candidate. -/
theorem Noted.generated_length (h : S.Noted temperature s status s' calls) :
    (Journal.generated calls).length = 1 := by
  cases h with
  | better =>
      rw [Journal.generated_append, Journal.generated_append, Journal.generated_drew]
      rfl
  | other =>
      rw [Journal.generated_append, Journal.generated_drew]
      rfl

/-- What a trial comes to as far as costs and draws go: the decision about its candidate, and the
comparison with the best cost, which has the last word about the status. -/
theorem Noted.parts (h : S.Noted temperature s status s' calls) :
    ∃ (k : κ) (moves : Bool) (decided : Status) (draws : List Float),
      S.Decided temperature s.currentCost k moves decided draws ∧ Journal.costs calls = [k] ∧
      Journal.drawn calls = draws ∧ s'.currentCost = (if moves then k else s.currentCost) ∧
      (S.scale.less k s.bestCost = .ok true ∧ status = .best ∧ s'.bestCost = k ∨
        S.scale.less k s.bestCost = .ok false ∧ status = decided ∧ s'.bestCost = s.bestCost) := by
  cases h with
  | @better _ _ k moves decided draws decision less =>
      refine ⟨k, moves, decided, draws, decision, ?_,
        ?_, by cases moves <;> rfl, .inl ⟨less, rfl, rfl⟩⟩
      · rw [Journal.costs_append, Journal.costs_append, Journal.costs_drew]
        rfl
      · rw [Journal.drawn_append, Journal.drawn_append, Journal.drawn_drew]
        exact List.append_nil draws
  | @other _ k moves _ draws decision less =>
      refine ⟨k, moves, status, draws, decision, ?_, ?_, by cases moves <;> rfl,
        .inr ⟨less, rfl, Standing.after_bestCost ..⟩⟩
      · rw [Journal.costs_append, Journal.costs_drew]
        rfl
      · rw [Journal.drawn_append, Journal.drawn_drew]
        rfl

/-- A trial asks for one cost, and takes it as the best one if it is below. -/
theorem Noted.cost (h : S.Noted temperature s status s' calls) :
    ∃ k, Journal.costs calls = [k] ∧
      (S.scale.less k s.bestCost = .ok true ∧ s'.bestCost = k ∨
        S.scale.less k s.bestCost = .ok false ∧ s'.bestCost = s.bestCost) := by
  obtain ⟨k, _, _, _, -, cost, -, -, ⟨less, -, best⟩ | ⟨less, -, best⟩⟩ := h.parts
  · exact ⟨k, cost, .inl ⟨less, best⟩⟩
  · exact ⟨k, cost, .inr ⟨less, best⟩⟩

end

/-! ### What is noted of a run -/

/-- The calls of the start. -/
theorem start_noted {initial : σ} {w : ω} {s : Standing σ κ} {w' : Watched ω σ κ}
    (h : S.watched.start initial ⟨w, []⟩ = .ok s w') :
    ∃ current k best, s = { trials := 0, current, currentCost := k, best, bestCost := k } ∧
      w'.calls = [.copied initial current, .priced initial k, .copied initial best] := by
  obtain ⟨current, k, best, w₁, w₂, h₁, h₂, h₃, rfl⟩ := S.watched.start_ok_iff.mp h
  obtain ⟨-, l₁⟩ := watch_ok_iff.mp h₁
  obtain ⟨-, l₂⟩ := watch_ok_iff.mp h₂
  obtain ⟨-, l₃⟩ := watch_ok_iff.mp h₃
  refine ⟨current, k, best, rfl, ?_⟩
  rw [l₃, l₂, l₁]
  rfl

variable {S} {initial : σ} {s : Standing σ κ} {p p' : Progress ω}

/-- **What the start establishes and every trial keeps of the standing and the journal holds where a
run ends.** -/
theorem run_noted {I : Standing σ κ → List (Call σ κ) → Prop}
    (start : ∀ current k best, I { trials := 0, current, currentCost := k, best, bestCost := k }
      [.copied initial current, .priced initial k, .copied initial best])
    (step : ∀ {temperature status s s' calls more}, I s calls →
      S.Noted temperature s status s' more →
      I s' (calls ++ more))
    (h : S.run initial p = .ok s p') : I s (S.journal initial p) := by
  have started : ∀ {s w}, S.watched.start initial (unopened p).world = .ok s w → I s w.calls := by
    intro s w started
    obtain ⟨current, k, best, rfl, calls⟩ := S.start_noted started
    rw [calls]
    exact start current k best
  have stepped : ∀ {temperature s s' w w' status}, I s w.calls →
      S.watched.Attempted temperature s w status s' w' → I s' w'.calls := by
    intro temperature s s' w w' status hI attempted
    obtain ⟨more, noted, calls⟩ := S.attempted_noted attempted
    rw [calls]
    exact step hI noted
  have kept :=
    run_ok (I := fun s (w : Watched ω σ κ) => I s w.calls) started stepped (watched_of_run h)
  exact kept

/-- **A run that answers is its start and a course, with the journal kept along.** -/
theorem run_parts (h : S.run initial p = .ok s p') :
    ∃ ts s₀ q₀, S.options.schedule.Levels S.options.schedule.first ts ∧
      S.watched.start initial ⟨p.world, []⟩ = .ok s₀ q₀.world ∧ q₀.log = p.log ∧
      S.watched.course (S.agenda ts) s₀ q₀ = .ok s ⟨⟨p'.world, S.journal initial p⟩, p'.log⟩ := by
  obtain ⟨ts, levels⟩ := ends_of_run h
  have run := watched_of_run h
  rw [S.watched.run_eq_course levels] at run
  obtain ⟨s₀, q₀, started, course⟩ := Effect.bind_ok_iff.mp run
  obtain ⟨started, log⟩ := inWorld_ok_iff.mp started
  exact ⟨ts, s₀, q₀, levels, started, log, course⟩

/-- The journal of a course begins with what was noted before it. -/
theorem course_journal {due : List (Nat × Float)} {s s' : Standing σ κ}
    {q q' : Progress (Watched ω σ κ)} (h : S.watched.course due s q = .ok s' q') :
    q.world.calls <+: q'.world.calls := by
  refine S.watched.course_ok
    (I := fun _ q' => q.world.calls <+: q'.world.calls) ?_ List.prefix_rfl h
  intro level temperature s₁ s₂ q₁ q₂ earlier h
  obtain ⟨status, attempted, -⟩ := S.watched.attempt_ok_iff.mp h
  obtain ⟨calls, -, added⟩ := S.attempted_noted attempted
  rw [added]
  exact earlier.trans (List.prefix_append _ _)

/-- **The best cost is the leader of all costs that occurred.** -/
theorem run_leads (h : S.run initial p = .ok s p') :
    ∃ place changes,
      S.scale.Leads (Journal.costs (S.journal initial p)) place s.bestCost changes := by
  refine run_noted (I := fun s calls => ∃ place changes,
    S.scale.Leads (Journal.costs calls) place s.bestCost changes)
    (fun _ k _ => ⟨0, 0, .first k⟩) ?_ h
  rintro temperature status s s' calls more ⟨place, changes, leads⟩ noted
  obtain ⟨k, cost, ⟨less, best⟩ | ⟨less, best⟩⟩ := noted.cost
  · rw [Journal.costs_append, cost, best]
    exact ⟨_, _, leads.take less⟩
  · rw [Journal.costs_append, cost, best]
    exact ⟨_, _, leads.keep less⟩

end Search

end Annealing
