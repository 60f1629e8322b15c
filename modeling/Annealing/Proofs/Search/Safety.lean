import Annealing.Proofs.Number.Mixed
import Annealing.Proofs.Search.Journal
import Annealing.Proofs.Search.Termination

/-!
# Search — strategies that never fail

A strategy *serves* the states of a kind (`Search.Serves`) if none of its calls fails on them, and
copies and neighbors of them are of this kind again; what neighbors have to do with the states they
were made of is left open (`near`).  Their costs have to be of a kind that the rules for costs
handle (`CostScale.Handles`), as all doubles are, and integers that are not too large for doubles.

* `Serves.run_answers`: a search with a finite schedule answers if its strategy serves a kind of
  states and the initial one is of it.  Every state of the run is then of this kind: the current and
  the best one in every trial, and every candidate.
-/

namespace Annealing

variable {ω σ κ : Type}

/-- The states of a call are good, and candidates near the states they were made of. -/
def Call.Sound (good : σ → Prop) (near : σ → σ → Prop) : Call σ κ → Prop
  | .copied s copy => good s ∧ good copy
  | .generated parent candidate => good parent ∧ good candidate ∧ near parent candidate
  | .priced s _ => good s
  | .drew _ => True

/-- Costs of a kind that can be compared, judged and shown. -/
structure CostScale.Handles (scale : CostScale κ) (fair : κ → Prop) : Prop where
  less : ∀ {a b}, fair a → fair b → ∃ below, scale.less a b = .ok below
  judge : ∀ {a b}, fair a → fair b → ∀ t, ∃ verdict, scale.judge a b t = .ok verdict
  real : ∀ {k}, fair k → ∃ x, scale.real k = .ok x

/-- The acceptance rule never fails on doubles. -/
theorem CostScale.doubles_judge (current new temperature : Float) :
    ∃ v, CostScale.doubles.judge current new temperature = .ok v := by
  simp only [CostScale.doubles, verdict, Arithmetic.doubles, bind, Except.bind, pure, Except.pure,
    decide_eq_true_eq]
  split
  · exact ⟨_, rfl⟩
  · split <;> exact ⟨_, rfl⟩

theorem CostScale.doubles_handles : CostScale.doubles.Handles fun _ => True where
  less _ _ := ⟨_, rfl⟩
  judge _ _ _ := doubles_judge _ _ _
  real _ := ⟨_, rfl⟩

/-- The acceptance rule fails on two integers at most if their difference is too large for a
double. -/
theorem CostScale.values_judge {m n : ℤ} (shown : ∃ x, realOfInt (m - n) = .ok x) (t : Float) :
    ∃ v, CostScale.values.judge (.int m) (.int n) t = .ok v := by
  obtain ⟨x, shown⟩ := shown
  have gap : Arithmetic.values.gap (.int m) (.int n) = .ok (.int (n - m)) := rfl
  have cold : Arithmetic.values.isCold (.float t) = .ok (decide (t ≤ 0)) := Value.relate_atMost t 0
  have quotient : Arithmetic.values.exponent (.int (n - m)) (.float t) =
      realOfInt (-(n - m)) >>= fun x =>
        if t == 0 then .error (.divisionByZero true) else .ok (x / t) := rfl
  rw [neg_sub, shown] at quotient
  simp only [CostScale.values, verdict, gap, cold, quotient, bind, Except.bind, pure, Except.pure,
    decide_eq_true_eq]
  split
  · exact ⟨_, rfl⟩
  · split
    · exact ⟨_, rfl⟩
    next warm => exact ⟨_, by rw [if_neg fun zero => warm (le_of_beq zero)]⟩

/-- Integers are handled if they and their differences are not too large for doubles. -/
theorem CostScale.values_handles {prices : List ℤ} (shown : ∀ n ∈ prices, (realOfInt n).isOk)
    (apart : ∀ m ∈ prices, ∀ n ∈ prices, (realOfInt (m - n)).isOk) :
    CostScale.values.Handles fun k => ∃ n ∈ prices, k = .int n where
  less := by
    rintro _ _ ⟨m, -, rfl⟩ ⟨n, -, rfl⟩
    exact ⟨_, rfl⟩
  judge := by
    rintro _ _ ⟨m, hm, rfl⟩ ⟨n, hn, rfl⟩ t
    exact values_judge (exists_of_isOk (apart m hm n hn)) t
  real := by
    rintro _ ⟨n, hn, rfl⟩
    exact exists_of_isOk (shown n hn)

namespace Search

/-- A strategy that never fails on good states and makes good ones of them, at costs of a kind. -/
structure Serves (S : Search ω σ κ) (good : σ → Prop) (near : σ → σ → Prop) (fair : κ → Prop) :
    Prop where
  copy : ∀ {s}, good s → ∀ w, ∃ s' w', S.copy s w = .ok s' w' ∧ good s'
  neighbor : ∀ {s}, good s → ∀ w, ∃ s' w', S.neighbor s w = .ok s' w' ∧ good s' ∧ near s s'
  cost : ∀ {s}, good s → ∀ w, ∃ k w', S.cost s w = .ok k w' ∧ fair k
  draw : ∀ w, ∃ u w', S.draw w = .ok u w'
  scale : S.scale.Handles fair

namespace Serves

variable {S : Search ω σ κ} {good : σ → Prop} {near : σ → σ → Prop} {fair : κ → Prop}

theorem good_of_copy (serves : S.Serves good near fair) {s s' : σ} {w w' : ω} (hs : good s)
    (h : S.copy s w = .ok s' w') : good s' := by
  obtain ⟨_, _, h', hg⟩ := serves.copy hs w
  rw [h] at h'
  cases h'
  exact hg

theorem good_of_neighbor (serves : S.Serves good near fair) {s s' : σ} {w w' : ω} (hs : good s)
    (h : S.neighbor s w = .ok s' w') : good s' ∧ near s s' := by
  obtain ⟨_, _, h', hg⟩ := serves.neighbor hs w
  rw [h] at h'
  cases h'
  exact hg

theorem fair_of_cost (serves : S.Serves good near fair) {s : σ} {k : κ} {w w' : ω} (hs : good s)
    (h : S.cost s w = .ok k w') : fair k := by
  obtain ⟨_, _, h', hk⟩ := serves.cost hs w
  rw [h] at h'
  cases h'
  exact hk

/-- A watched strategy serves what the strategy serves. -/
theorem watched (serves : S.Serves good near fair) : S.watched.Serves good near fair where
  copy hs w := by
    obtain ⟨s', w', h, hg⟩ := serves.copy hs w.world
    exact ⟨s', ⟨w', _⟩, watch_ok_iff.mpr ⟨h, rfl⟩, hg⟩
  neighbor hs w := by
    obtain ⟨s', w', h, hg⟩ := serves.neighbor hs w.world
    exact ⟨s', ⟨w', _⟩, watch_ok_iff.mpr ⟨h, rfl⟩, hg⟩
  cost hs w := by
    obtain ⟨k, w', h, hk⟩ := serves.cost hs w.world
    exact ⟨k, ⟨w', _⟩, watch_ok_iff.mpr ⟨h, rfl⟩, hk⟩
  draw w := by
    obtain ⟨u, w', h⟩ := serves.draw w.world
    exact ⟨u, ⟨w', _⟩, watch_ok_iff.mpr ⟨h, rfl⟩⟩
  scale := serves.scale

/-! ### No step fails -/

theorem decideMove_answers (serves : S.Serves good near fair) (temperature : Float)
    {current new : κ} (fair₁ : fair current) (fair₂ : fair new) (w : ω) :
    ∃ move w', S.decideMove temperature current new w = .ok move w' :=
  Search.decideMove_answers (serves.scale.judge fair₁ fair₂ temperature) (serves.draw w)
    (serves.scale.less fair₂ fair₁)

theorem attempted (serves : S.Serves good near fair) {s : Standing σ κ} (hs : good s.current)
    (current : fair s.currentCost) (best : fair s.bestCost) (temperature : Float) (w : ω) :
    ∃ status s' w', S.Attempted temperature s w status s' w' := by
  obtain ⟨candidate, w₁, hn, hg, -⟩ := serves.neighbor hs w
  obtain ⟨k, w₂, hc, hk⟩ := serves.cost hg w₁
  obtain ⟨⟨moves, status⟩, w₃, hm⟩ := serves.decideMove_answers temperature current hk w₂
  obtain ⟨below, hl⟩ := serves.scale.less hk best
  cases below with
  | true =>
      obtain ⟨best, w₄, hb, -⟩ := serves.copy hg w₃
      exact ⟨_, _, w₄, .better hn hc hm hl hb⟩
  | false => exact ⟨_, _, w₃, .other hn hc hm hl⟩

/-! ### All states stay good -/

/-- The states of a standing and of all calls so far are good, and its costs fair. -/
structure Safe (good : σ → Prop) (near : σ → σ → Prop) (fair : κ → Prop)
    (s : Standing σ κ) (w : Watched ω σ κ) :
    Prop where
  current : good s.current
  best : good s.best
  currentCost : fair s.currentCost
  bestCost : fair s.bestCost
  calls : ∀ call ∈ w.calls, call.Sound good near

theorem start_safe (serves : S.Serves good near fair) {initial : σ} (hi : good initial) (w : ω) :
    ∃ s w', S.watched.start initial ⟨w, []⟩ = .ok s w' ∧ Safe good near fair s w' := by
  obtain ⟨current, w₁, h₁, hc⟩ := serves.copy hi w
  obtain ⟨k, w₂, h₂, hk⟩ := serves.cost hi w₁
  obtain ⟨best, w₃, h₃, hb⟩ := serves.copy hi w₂
  let calls : List (Call σ κ) := [.copied initial current, .priced initial k, .copied initial best]
  refine ⟨⟨0, current, k, best, k⟩, ⟨w₃, calls⟩, S.watched.start_ok_iff.mpr ?_, hc, hb, hk, hk, ?_⟩
  · exact ⟨current, k, best, ⟨w₁, calls.take 1⟩, ⟨w₂, calls.take 2⟩, watch_ok_iff.mpr ⟨h₁, rfl⟩,
      watch_ok_iff.mpr ⟨h₂, rfl⟩, watch_ok_iff.mpr ⟨h₃, rfl⟩, rfl⟩
  · intro call hcall
    simp only [calls, List.mem_cons, List.not_mem_nil, or_false] at hcall
    rcases hcall with rfl | rfl | rfl
    · exact ⟨hi, hc⟩
    · exact hi
    · exact ⟨hi, hb⟩

/-- The calls of a trial up to the decision are sound. -/
theorem considered (serves : S.Serves good near fair) {s : Standing σ κ}
    {w w₁ w₂ w₃ : Watched ω σ κ} (safe : Safe good near fair s w) {temperature : Float}
    {candidate : σ} {k : κ} {move : Bool × Status}
    (neighbor : S.watched.neighbor s.current w = .ok candidate w₁)
    (cost : S.watched.cost candidate w₁ = .ok k w₂)
    (decide : S.watched.decideMove temperature s.currentCost k w₂ = .ok move w₃) :
    good candidate ∧ fair k ∧ ∀ call ∈ w₃.calls, call.Sound good near := by
  obtain ⟨draws, calls⟩ := S.considered_calls neighbor cost decide
  obtain ⟨hg, hnear⟩ := serves.good_of_neighbor safe.current (watch_ok_iff.mp neighbor).1
  refine ⟨hg, serves.fair_of_cost hg (watch_ok_iff.mp cost).1, fun call hcall => ?_⟩
  rw [calls] at hcall
  simp only [List.mem_append, List.mem_cons, List.mem_map, List.not_mem_nil, or_false] at hcall
  rcases hcall with h | (rfl | rfl) | ⟨u, -, rfl⟩
  · exact safe.calls call h
  · exact ⟨safe.current, hg, hnear⟩
  · exact hg
  · trivial

/-- **One trial keeps all states good.** -/
theorem attempted_safe (serves : S.Serves good near fair) {s s' : Standing σ κ}
    {w w' : Watched ω σ κ} {temperature : Float} {status : Status} (safe : Safe good near fair s w)
    (attempted : S.watched.Attempted temperature s w status s' w') : Safe good near fair s' w' := by
  cases attempted with
  | better neighbor cost move less copy =>
      obtain ⟨hg, hk, sound⟩ := serves.considered safe neighbor cost move
      obtain ⟨hcopy, calls⟩ := watch_ok_iff.mp copy
      have hbest := serves.good_of_copy hg hcopy
      refine ⟨Standing.after_current safe.current hg _ _, hbest,
        Standing.after_currentCost safe.currentCost hk _ _, hk, fun call hcall => ?_⟩
      rw [calls] at hcall
      rcases List.mem_append.mp hcall with h | h
      · exact sound call h
      · obtain rfl := List.mem_singleton.mp h
        exact ⟨hg, hbest⟩
  | other neighbor cost move less =>
      obtain ⟨hg, hk, sound⟩ := serves.considered safe neighbor cost move
      refine ⟨Standing.after_current safe.current hg _ _, ?_,
        Standing.after_currentCost safe.currentCost hk _ _, ?_, sound⟩
      · rw [Standing.after_best]
        exact safe.best
      · rw [Standing.after_bestCost]
        exact safe.bestCost

/-- **A search whose strategy serves good states comes to an end, and all its states are good.** -/
theorem run_answers (serves : S.Serves good near fair) (ends : S.options.schedule.Ends)
    {initial : σ} (hi : good initial) (p : Progress ω) :
    ∃ s p', S.run initial p = .ok s p' ∧ good s.current ∧ good s.best ∧
      ∀ call ∈ S.journal initial p, call.Sound good near := by
  have step : ∀ {level temperature s q}, Safe good near fair s q.world →
      ∃ s' q', S.watched.attempt level temperature s q = .ok s' q' ∧
        Safe good near fair s' q'.world := by
    intro level temperature s q safe
    obtain ⟨status, s', w', attempted⟩ :=
      serves.watched.attempted safe.current safe.currentCost safe.bestCost temperature q.world
    have safe' := serves.attempted_safe safe attempted
    obtain ⟨log, answered⟩ := attempt_of_attempted level attempted
      (serves.scale.real safe'.currentCost)
      (serves.scale.real safe'.bestCost)
    exact ⟨s', ⟨w', log⟩, answered, safe'⟩
  have ends : S.watched.options.schedule.Ends := ends
  obtain ⟨s, p', h, safe⟩ :=
    Search.run_answers (p := unopened p) ends (serves.start_safe hi p.world) step
  obtain ⟨run, journal⟩ := run_of_watched h
  refine ⟨s, unwatched p', run, safe.current, safe.best, ?_⟩
  rw [journal]
  exact safe.calls

end Serves

end Search

end Annealing
