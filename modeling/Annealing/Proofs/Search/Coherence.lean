import Annealing.Proofs.Search.Agenda
import Annealing.Proofs.Search.Safety

/-!
# Search — status, costs and draws fit together

What came of a trial is decided twice: by the acceptance rule, and by the comparison with the best
cost so far, which has the last word.  The two never disagree as long as the best cost is not above
the current one.  This is the invariant: a candidate below the best cost is then below the current
one too, so it is accepted without a draw.

* `TrialOutcome.Coherent`: what the status of a trial says about the costs before and after it.
* `Search.noted_coherent`: one trial at a temperature above zero is coherent and keeps the
  invariant.
* `Search.course_coherent`, `Search.run_coherent`: so are all trials of a course and of a run, and
  the entries of the log show them.

The temperature has to be above zero, for otherwise the acceptance rule turns candidates down
without a draw.  The rule looks at the difference of two costs and the comparison with the best one
at their order, so these have to agree (`Arithmetic.Agrees`), as they do for integers of any size
(`values_agree`).
-/

namespace Annealing

/-! ### Differences and order -/

/-- A scale that judges by the acceptance rule of an arithmetic in which temperatures above zero are
not cold. -/
structure CostScale.JudgesBy {κ θ δ : Type} (scale : CostScale κ)
    (A : Arithmetic κ θ δ) (measure : Float → θ) :
    Prop where
  judge : ∀ current new t, scale.judge current new t = verdict A current new (measure t)
  warm : ∀ {t}, t > 0 → A.isCold (measure t) = .ok false

/-- Costs of which one is below another exactly if their difference is below zero. -/
def Arithmetic.Agrees {κ θ δ : Type} (A : Arithmetic κ θ δ) (scale : CostScale κ) (costs : List κ) :
    Prop :=
  ∀ a ∈ costs, ∀ b ∈ costs, ∀ d, A.gap a b = .ok d → (A.isBelowZero d ↔ scale.isBelow b a)

theorem values_judges : CostScale.values.JudgesBy Arithmetic.values .float where
  judge _ _ _ := rfl
  warm {t} h := by
    refine (Value.relate_atMost t 0).trans (congrArg Except.ok (decide_eq_false fun cold => ?_))
    exact (le_iff_not_lt.mp cold).2 h

/-- Integers of any size agree with their differences. -/
theorem values_agree {costs : List Value} (integers : ∀ k ∈ costs, ∃ n, k = .int n) :
    Arithmetic.values.Agrees .values costs := by
  intro a ha b hb d gap
  obtain ⟨m, rfl⟩ := integers a ha
  obtain ⟨n, rfl⟩ := integers b hb
  cases gap
  rw [CostScale.isBelow_ints]
  exact (Number.int_below_zero (n - m)).trans ⟨Int.lt_of_sub_neg, Int.sub_neg_of_lt⟩

/-- Above zero, a candidate is either accepted, or left to chance because its difference is not
below zero. -/
theorem verdict_of_warm {κ θ δ : Type} {A : Arithmetic κ θ δ} {current new : κ} {t : θ}
    {v : Verdict} (warm : A.isCold t = .ok false) (h : verdict A current new t = .ok v) :
    ∃ d, A.gap current new = .ok d ∧
      (A.isBelowZero d = true ∧ v = .accepted ∨ A.isBelowZero d = false ∧ ∃ p, v = .chance p) := by
  obtain ⟨d, gap, h⟩ := except_bind_ok_iff.mp h
  refine ⟨d, gap, ?_⟩
  cases below : A.isBelowZero d with
  | true =>
      rw [below, if_pos rfl] at h
      cases h
      exact .inl ⟨rfl, rfl⟩
  | false =>
      rw [below, if_neg Bool.false_ne_true] at h
      obtain ⟨cold, isCold, h⟩ := except_bind_ok_iff.mp h
      rw [warm] at isCold
      cases isCold
      obtain ⟨x, -, h⟩ := except_bind_ok_iff.mp h
      cases h
      exact .inr ⟨rfl, _, rfl⟩

namespace Verdict.Settled

theorem of_accepted {moves : Bool} {draws : List Float} (h : Settled .accepted moves draws) :
    moves = true ∧ draws = [] := by
  cases h
  exact ⟨rfl, rfl⟩

theorem of_chance {p : Float} {moves : Bool} {draws : List Float}
    (h : Settled (.chance p) moves draws) :
    ∃ u, draws = [u] := by
  cases h
  exact ⟨_, rfl⟩

end Verdict.Settled

/-! ### Coherent outcomes -/

/-- What a trial comes to: the cost of its candidate, the current and the best cost after it, and
its status. -/
structure TrialOutcome (κ : Type) where
  candidate : κ
  current : κ
  best : κ
  status : Status

namespace TrialOutcome

variable {κ : Type}

/-- The outcome of a trial fits the current and the best cost before it. -/
structure Coherent (scale : CostScale κ) (current best : κ) (o : TrialOutcome κ) : Prop where
  /-- The best cost is not above the current one. -/
  leads : ¬ scale.isBelow o.current o.best
  taken : o.status ≠ .reject → o.current = o.candidate
  best_iff : o.status = .best ↔ scale.isBelow o.best best
  best_taken : o.status = .best → o.best = o.candidate
  improve_iff : o.status = .improve ↔ scale.isBelow o.current current ∧ o.best = best
  accept_keeps : o.status = .accept → ¬ scale.isBelow o.current current ∧ o.best = best
  reject_keeps : o.status = .reject → o.current = current ∧ o.best = best ∧
    ¬ scale.isBelow o.candidate current

/-- The costs after a trial are among the costs before it and that of the candidate. -/
theorem Coherent.mem {scale : CostScale κ} {current best : κ} {o : TrialOutcome κ} {costs : List κ}
    (h : o.Coherent scale current best) (hcurrent : current ∈ costs) (hbest : best ∈ costs)
    (candidate : o.candidate ∈ costs) : o.current ∈ costs ∧ o.best ∈ costs := by
  cases status : o.status with
  | reject =>
      obtain ⟨same, same', -⟩ := h.reject_keeps status
      exact ⟨same ▸ hcurrent, same' ▸ hbest⟩
  | accept => exact ⟨h.taken (by simp [status]) ▸ candidate, (h.accept_keeps status).2 ▸ hbest⟩
  | improve => exact ⟨h.taken (by simp [status]) ▸ candidate, (h.improve_iff.mp status).2 ▸ hbest⟩
  | best => exact ⟨h.taken (by simp [status]) ▸ candidate, h.best_taken status ▸ candidate⟩

/-- Outcomes of trials one after the other, the first of which comes after the given costs. -/
inductive CoherentFrom (scale : CostScale κ) : κ → κ → List (TrialOutcome κ) → Prop where
  | nil (current best : κ) : CoherentFrom scale current best []
  | cons {current best : κ} {o : TrialOutcome κ} {rest : List (TrialOutcome κ)}
      (first : o.Coherent scale current best)
      (more : CoherentFrom scale o.current o.best rest) :
      CoherentFrom scale current best (o :: rest)

/-- An entry of the log that shows an outcome; costs are shown as doubles. -/
structure Shown (scale : CostScale κ) (o : TrialOutcome κ) (row : Trial) : Prop where
  status : row.status = o.status
  current : scale.real o.current = .ok row.currentCost
  best : scale.real o.best = .ok row.bestCost

end TrialOutcome

/-- Whether a number is drawn in a trial that comes to this. -/
def Status.isDrawn (status : Status) : Bool := status == .accept || status == .reject

/-- The entries `rows` and the calls `calls` are those of coherent trials, the first of which comes
after the given costs, and a number was drawn for every candidate that was accepted without being
better or turned down. -/
structure Told {σ κ : Type} (scale : CostScale κ) (current best : κ) (rows : List Trial)
    (calls : List (Call σ κ)) :
    Prop where
  trials :
    ∃ outcomes : List (TrialOutcome κ), List.Forall₂ (TrialOutcome.Shown scale) outcomes rows ∧
    Journal.costs calls = outcomes.map TrialOutcome.candidate ∧
    TrialOutcome.CoherentFrom scale current best outcomes
  draws : (Journal.drawn calls).length = rows.countP fun row => row.status.isDrawn

namespace Search

variable {ω σ κ θ δ : Type} {S : Search ω σ κ} {A : Arithmetic κ θ δ} {measure : Float → θ}

/-! ### One trial -/

/-- Above zero, a candidate below the current cost is an improvement without a draw, and a number is
drawn for any other one. -/
theorem decided_of_warm (judges : S.scale.JudgesBy A measure) {temperature : Float}
    (warm : temperature > 0) {current new : κ} {moves : Bool} {status : Status} {draws : List Float}
    (agrees : ∀ d, A.gap current new = .ok d → (A.isBelowZero d ↔ S.scale.isBelow new current))
    (h : S.Decided temperature current new moves status draws) :
    S.scale.isBelow new current ∧ moves = true ∧ status = .improve ∧ draws = [] ∨
      ¬ S.scale.isBelow new current ∧ draws.length = 1 ∧
        (moves = true ∧ status = .accept ∨ moves = false ∧ status = .reject) := by
  -- what the rule does not find below the current cost is not below it
  have higher : ∀ {d}, A.gap current new = .ok d → A.isBelowZero d = false →
      ¬ S.scale.isBelow new current :=
    fun gap apart below => by
      rw [(agrees _ gap).mpr below] at apart
      cases apart
  cases h with
  | stays judged settled =>
      rw [judges.judge] at judged
      obtain ⟨d, gap, ⟨-, rfl⟩ | ⟨apart, p, rfl⟩⟩ := verdict_of_warm (judges.warm warm) judged
      · cases settled.of_accepted.1
      · obtain ⟨u, rfl⟩ := settled.of_chance
        exact .inr ⟨higher gap apart, rfl, .inr ⟨rfl, rfl⟩⟩
  | @goes _ _ better judged settled less =>
      rw [judges.judge] at judged
      have below := CostScale.isBelow_of_less less
      obtain ⟨d, gap, ⟨apart, rfl⟩ | ⟨apart, p, rfl⟩⟩ := verdict_of_warm (judges.warm warm) judged
      · have lower := (agrees d gap).mp apart
        obtain rfl : better = true := below.symm.trans lower
        exact .inl ⟨lower, rfl, rfl, settled.of_accepted.2⟩
      · obtain ⟨u, rfl⟩ := settled.of_chance
        obtain rfl : better = false := by
          rw [← below]
          exact Bool.eq_false_iff.mpr (higher gap apart)
        exact .inr ⟨higher gap apart, rfl, .inl ⟨rfl, rfl⟩⟩

/-- **A trial above zero is coherent.** -/
theorem noted_coherent (judges : S.scale.JudgesBy A measure) {temperature : Float}
    (warm : temperature > 0) {s s' : Standing σ κ} {status : Status} {calls : List (Call σ κ)}
    {costs : List κ} (ordered : S.scale.Orders costs) (agrees : A.Agrees S.scale costs)
    (hcurrent : s.currentCost ∈ costs) (hbest : s.bestCost ∈ costs)
    (leads : ¬ S.scale.isBelow s.currentCost s.bestCost) (h : S.Noted temperature s status s' calls)
    (occurred : ∀ k ∈ Journal.costs calls, k ∈ costs) :
    ∃ k, Journal.costs calls = [k] ∧
      TrialOutcome.Coherent S.scale s.currentCost s.bestCost
        ⟨k, s'.currentCost, s'.bestCost, status⟩ ∧
      (Journal.drawn calls).length = if status.isDrawn then 1 else 0 := by
  have itself : ∀ {k}, k ∈ costs → ¬ S.scale.isBelow k k := fun hk below =>
    ordered.asymm _ hk _ hk below below
  obtain ⟨k, moves, decided, draws, decision, priced, drawn, moved, last⟩ := h.parts
  have hk : k ∈ costs := occurred k (by rw [priced]; exact List.mem_singleton_self k)
  refine ⟨k, priced, ?_⟩
  rw [drawn, moved]
  rcases decided_of_warm judges warm (agrees _ hcurrent _ hk) decision
    with ⟨lower, rfl, rfl, rfl⟩ | ⟨higher, one, move⟩
  · rcases last with ⟨less, rfl, renewed⟩ | ⟨less, rfl, kept⟩
    · have below := CostScale.isBelow_of_less less
      rw [renewed]
      refine ⟨⟨itself hk, fun _ => rfl, iff_of_true rfl below, fun _ => rfl, iff_of_false nofun ?_,
        nofun, nofun⟩, rfl⟩
      rintro ⟨-, same⟩
      exact itself hbest (by rwa [show k = s.bestCost from same] at below)
    · have above := CostScale.isBelow_of_less less
      rw [kept]
      exact ⟨⟨Bool.eq_false_iff.mp above, fun _ => rfl, iff_of_false nofun (itself hbest), nofun,
        iff_of_true rfl ⟨lower, rfl⟩, nofun, nofun⟩, rfl⟩
  · -- the best cost is not above the current one, so a candidate that is not below this one is not
    -- the best
    have above : ¬ S.scale.isBelow k s.bestCost := fun below =>
      (ordered.split k hk _ hcurrent _ hbest below).elim higher leads
    obtain ⟨less, -, -⟩ | ⟨-, rfl, kept⟩ := last
    · exact absurd (CostScale.isBelow_of_less less) above
    rw [kept]
    obtain ⟨rfl, rfl⟩ | ⟨rfl, rfl⟩ := move
    · exact ⟨⟨above, fun _ => rfl, iff_of_false nofun (itself hbest), nofun,
        iff_of_false nofun fun h => higher h.1, fun _ => ⟨higher, rfl⟩, nofun⟩, one⟩
    · exact ⟨⟨leads, fun h => absurd rfl h, iff_of_false nofun (itself hbest), nofun,
        iff_of_false nofun fun h => itself hcurrent h.1, nofun, fun _ => ⟨rfl, rfl, higher⟩⟩, one⟩

/-! ### All trials -/

/-- With a period of one at most, every trial is logged. -/
theorem isLogged_of_le_one (logs : S.logging = true)
    (often : S.options.logPeriod ≤ 1) (number : ℕ) :
    S.isLogged number = true := by
  have period : S.period = 1 := by
    unfold Search.period
    omega
  rw [isLogged, logs, period, Nat.mod_one]
  rfl

/-- The temperatures of the trials are those of the levels. -/
theorem mem_of_agendaFrom {count : ℕ} {trial : ℕ × Float} {ts : List Float} :
    ∀ {level : ℕ}, trial ∈ agendaFrom count level ts → trial.2 ∈ ts := by
  induction ts with
  | nil => exact nofun
  | cons t ts ih =>
      intro level h
      rcases List.mem_append.mp h with own | later
      · rw [List.eq_of_mem_replicate own]
        exact List.mem_cons_self
      · exact List.mem_cons_of_mem _ (ih later)

/-- **The trials of a course above zero are coherent.** -/
theorem course_coherent (judges : S.scale.JudgesBy A measure) (logs : S.logging = true)
    (often : S.options.logPeriod ≤ 1) {costs : List κ} (ordered : S.scale.Orders costs)
    (agrees : A.Agrees S.scale costs) {s' : Standing σ κ} {q' : Progress (Watched ω σ κ)}
    {due : List (ℕ × Float)} :
    ∀ {s : Standing σ κ} {q : Progress (Watched ω σ κ)}, (∀ trial ∈ due, trial.2 > 0) →
      s.currentCost ∈ costs →
      s.bestCost ∈ costs → ¬ S.scale.isBelow s.currentCost s.bestCost →
      S.watched.course due s q = .ok s' q' →
      (∀ k ∈ Journal.costs q'.world.calls, k ∈ costs) →
        ∃ (rows : List Trial) (calls : List (Call σ κ)), q'.log = q.log ++ rows ∧
          q'.world.calls = q.world.calls ++ calls ∧
          Told S.scale s.currentCost s.bestCost rows calls := by
  induction due with
  | nil =>
      intro s q warm current best leads h occurred
      cases h
      exact ⟨[], [], rfl, (List.append_nil _).symm, ⟨[], .nil, rfl, .nil _ _⟩, rfl⟩
  | cons trial due ih =>
      intro s q warm current best leads h occurred
      obtain ⟨s₁, q₁, h₁, h⟩ := Effect.bind_ok_iff.mp h
      obtain ⟨status, attempted, recorded⟩ := S.watched.attempt_ok_iff.mp h₁
      obtain ⟨calls₁, noted, added₁⟩ := S.attempted_noted attempted
      -- all costs of this trial are still in the journal at the end
      have occurred₁ : ∀ k ∈ Journal.costs calls₁, k ∈ costs := fun k hk => by
        have kept := Journal.costs_prefix (course_journal h)
        rw [added₁, Journal.costs_append] at kept
        exact occurred k (kept.subset (List.mem_append_right _ hk))
      obtain ⟨warm₁, warm⟩ := List.forall_mem_cons.mp warm
      obtain ⟨k, priced, coherent, drawn⟩ :=
        noted_coherent judges warm₁ ordered agrees current best leads noted occurred₁
      have hk : k ∈ costs := occurred₁ k (by rw [priced]; exact List.mem_singleton_self k)
      obtain ⟨current₁, best₁⟩ := coherent.mem current best hk
      obtain ⟨rows, calls, log, added, ⟨outcomes, shown, candidates, chain⟩, draws⟩ :=
        ih warm current₁ best₁ coherent.leads h occurred
      rw [Recorded, if_pos (isLogged_of_le_one (S := S.watched) logs often _)] at recorded
      obtain ⟨currentCost, bestCost, shown₁, shown₁', pushed⟩ := recorded
      have told : TrialOutcome.Shown S.scale ⟨k, s₁.currentCost, s₁.bestCost, status⟩
          ⟨s₁.trials, trial.1, trial.2, currentCost, bestCost, status⟩ := ⟨rfl, shown₁, shown₁'⟩
      refine ⟨_ :: rows, calls₁ ++ calls, ?_, ?_,
        ⟨_ :: outcomes, .cons told shown, ?_, .cons coherent chain⟩, ?_⟩
      · rw [log, pushed]
        rfl
      · rw [added, added₁, List.append_assoc]
      · rw [Journal.costs_append, priced, candidates]
        rfl
      · rw [Journal.drawn_append, List.length_append, drawn, draws, List.countP_cons, Nat.add_comm]

/-- **Status, costs and draws of a run fit together.** -/
theorem run_coherent (judges : S.scale.JudgesBy A measure) (logs : S.logging = true)
    (often : S.options.logPeriod ≤ 1) (cooled : 0 ≤ S.options.minimumTemperature) {initial : σ}
    {s : Standing σ κ} {p p' : Progress ω} (h : S.run initial p = .ok s p')
    (ordered : S.scale.Orders (Journal.costs (S.journal initial p)))
    (agrees : A.Agrees S.scale (Journal.costs (S.journal initial p))) :
    ∃ (current best : σ) (k : κ) (rows : List Trial) (calls : List (Call σ κ)),
      p'.log = p.log ++ rows ∧
      S.journal initial p =
        [.copied initial current, .priced initial k, .copied initial best] ++ calls ∧
      Told S.scale k k rows calls := by
  obtain ⟨ts, s₀, q₀, levels, started, log, course⟩ := run_parts h
  obtain ⟨current, k, best, rfl, calls⟩ := S.start_noted started
  obtain ⟨-, above, -⟩ := Options.levels_eq levels (show S.options.temperatureAt 0 = _ from rfl)
  have warm : ∀ trial ∈ S.agenda ts, trial.2 > 0 := fun trial htrial =>
    lt_of_le_of_below cooled (above _ (mem_of_agendaFrom htrial))
  have occurred : k ∈ Journal.costs (S.journal initial p) := by
    refine (Journal.costs_prefix (course_journal course)).subset ?_
    rw [calls]
    exact List.mem_singleton_self k
  have itself : ¬ S.scale.isBelow k k := fun below =>
    ordered.asymm k occurred k occurred below below
  obtain ⟨rows, more, added, journal, told⟩ :=
    course_coherent judges logs often ordered agrees warm occurred occurred itself course
      fun _ h => h
  exact ⟨current, best, k, rows,
    more, by rw [← log]; exact added, by rw [← calls]; exact journal, told⟩

/-! ### A run above zero -/

/-- Every cost that occurs in a run is an answer of the strategy. -/
theorem run_costs {P : κ → Prop} (prices : ∀ {x k w w'}, S.cost x w = .ok k w' → P k) {initial : σ}
    {s : Standing σ κ} {p p' : Progress ω} (h : S.run initial p = .ok s p') :
    ∀ k ∈ Journal.costs (S.journal initial p), P k := by
  have started : ∀ {s w}, S.watched.start initial (unopened p).world = .ok s w →
      ∀ k ∈ Journal.costs w.calls, P k := by
    intro s w h k hk
    obtain ⟨current, cost, best, w₁, w₂, h₁, h₂, h₃, -⟩ := S.watched.start_ok_iff.mp h
    obtain ⟨-, l₁⟩ := watch_ok_iff.mp h₁
    obtain ⟨priced, l₂⟩ := watch_ok_iff.mp h₂
    obtain ⟨-, l₃⟩ := watch_ok_iff.mp h₃
    rw [l₃, l₂, l₁] at hk
    obtain rfl := List.mem_singleton.mp hk
    exact prices priced
  have stepped : ∀ {temperature s s' w w' status}, (∀ k ∈ Journal.costs w.calls, P k) →
      S.watched.Attempted temperature s w status s' w' → ∀ k ∈ Journal.costs w'.calls, P k := by
    intro temperature s s' w w' status earlier attempted k hk
    have asked : ∀ {x k₁ w₁ w₂}, S.watched.cost x w₁ = .ok k₁ w₂ →
        k ∈ Journal.costs w.calls ++ [k₁] → P k := by
      intro x k₁ w₁ w₂ cost hk
      rcases List.mem_append.mp hk with old | new
      · exact earlier k old
      · obtain rfl := List.mem_singleton.mp new
        exact prices (watch_ok_iff.mp cost).1
    cases attempted with
    | @better candidate best _ _ _ _ _ _ _ neighbor cost move less copy =>
        have nothing : Journal.costs [(.copied candidate best : Call σ κ)] = [] := rfl
        rw [(watch_ok_iff.mp copy).2, Journal.costs_append, S.considered_costs neighbor cost move,
          nothing, List.append_nil] at hk
        exact asked cost hk
    | other neighbor cost move less =>
        rw [S.considered_costs neighbor cost move] at hk
        exact asked cost hk
  have kept := run_ok
    (I := fun _ (w : Watched ω σ κ) => ∀ k ∈ Journal.costs w.calls, P k) started stepped
    (watched_of_run h)
  exact kept

/-- What the states of `warmWalk` cost, and its candidates from the fourth on. -/
def warmPrices : List ℤ := [5, 3, 4, 3, 900]

/-- A walk at temperatures above zero.  The first candidate is a new best one, a draw accepts the
dearer second one, the third improves on this and is as good as the best, and the fourth is turned
down every time. -/
def warmWalk : Search Unit ℕ Value where
  copy := pure
  neighbor x := pure (x + 1)
  cost x := pure (.int (warmPrices.getD x 900))
  scale := .values
  draw := pure 0.5
  options := { initialTemperature := 64, coolingFactor := 0.5, minimumTemperature := 30,
               swapsPerTemperature := 3,
               logPeriod := 1, extras := [] }
  logging := true

theorem warmPrices_priced (x : ℕ) : warmPrices.getD x 900 ∈ warmPrices := by
  rcases Nat.lt_or_ge x warmPrices.length with inside | outside
  · rw [List.getD_eq_getElem _ _ inside]
    exact List.getElem_mem inside
  · rw [List.getD_eq_default _ _ outside]
    decide

theorem warmWalk_coherent :
    ∃ s p', warmWalk.run 0 ⟨(), #[]⟩ = .ok s p' ∧
      ∃ (current best : ℕ) (k : Value) (rows : List Trial) (calls : List (Call ℕ Value)),
        p'.log = (#[] : Array Trial) ++ rows ∧
        warmWalk.journal 0 ⟨(), #[]⟩ = [.copied 0 current, .priced 0 k, .copied 0 best] ++ calls ∧
        Told warmWalk.scale k k rows calls := by
  have ends : warmWalk.options.schedule.Ends := by
    have first : (64 : Float) > 30 := by decide +kernel
    have second : (64 * 0.5 : Float) > 30 := by decide +kernel
    have third : ¬ (64 * 0.5 * 0.5 : Float) > 30 := by decide +kernel
    refine ⟨[64, 64 * 0.5], .more ?_ rfl (.more ?_ rfl (.stop ?_))⟩
    · exact congrArg Except.ok (decide_eq_true first)
    · exact congrArg Except.ok (decide_eq_true second)
    · exact congrArg Except.ok (decide_eq_false third)
  have serves : warmWalk.Serves (fun _ => True) (fun _ _ => True) fun k =>
      ∃ n ∈ warmPrices, k = .int n :=
    { copy := fun _ _ => ⟨_, _, rfl, trivial⟩
      neighbor := fun _ _ => ⟨_, _, rfl, trivial, trivial⟩
      cost := fun _ _ => ⟨_, _, rfl, _, warmPrices_priced _, rfl⟩
      draw := fun _ => ⟨_, _, rfl⟩
      scale := CostScale.values_handles (by decide +kernel) (by decide +kernel) }
  obtain ⟨s, p', run, -⟩ := serves.run_answers ends trivial ⟨(), #[]⟩
  have integers : ∀ k ∈ Journal.costs (warmWalk.journal 0 ⟨(), #[]⟩), ∃ n, k = .int n := by
    refine run_costs (fun {x k w w'} priced => ?_) run
    cases priced
    exact ⟨_, rfl⟩
  exact ⟨s, p', run,
    run_coherent values_judges rfl le_rfl (by decide +kernel) run (CostScale.values_orders integers)
    (values_agree integers)⟩

end Search

end Annealing
