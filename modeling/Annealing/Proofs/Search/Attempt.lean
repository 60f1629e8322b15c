import Annealing.Search
import Annealing.Proofs.Effect

/-!
# Search — what one trial does

`Search.attempt` is a sequence of calls of the strategy, two comparisons and perhaps an entry in the
log.  This module says once what such a sequence amounts to; everything that holds of all runs is
proved from it, and nothing else opens `attempt`.

* `Search.Attempted` relates the standings and the worlds before and after a trial, with what came
  of it.  It has one constructor for a candidate below the best cost so far and one for any other.
* `Search.Recorded` relates the logs before and after.
* `Search.attempt_ok_iff`: a trial answers exactly when it is `Attempted` and `Recorded`.
* `Search.run_ok`: what one trial keeps and the start establishes holds where a run ends.
-/

namespace Annealing

variable {ω σ κ : Type}

/-- The standing after a trial that went on from its candidate or not, as far as the current state
goes. -/
def Standing.after (s : Standing σ κ) (moves : Bool) (candidate : σ) (cost : κ) : Standing σ κ :=
  if moves then { s with trials := s.trials + 1, current := candidate, currentCost := cost }
  else { s with trials := s.trials + 1 }

@[simp] theorem Standing.after_best (s : Standing σ κ) (moves : Bool) (candidate : σ) (cost : κ) :
    (s.after moves candidate cost).best = s.best := by
  cases moves <;> rfl

@[simp] theorem Standing.after_bestCost (s : Standing σ κ) (moves : Bool)
    (candidate : σ) (cost : κ) :
    (s.after moves candidate cost).bestCost = s.bestCost := by
  cases moves <;> rfl

/-- The current state after a trial is the one before or the candidate. -/
theorem Standing.after_current {P : σ → Prop} {s : Standing σ κ} {candidate : σ} (hs : P s.current)
    (hc : P candidate) (moves : Bool) (cost : κ) : P (s.after moves candidate cost).current := by
  cases moves with
  | false => exact hs
  | true => exact hc

/-- The current cost after a trial is the one before or the candidate's. -/
theorem Standing.after_currentCost {P : κ → Prop} {s : Standing σ κ} {cost : κ}
    (hs : P s.currentCost) (hc : P cost) (moves : Bool) (candidate : σ) :
    P (s.after moves candidate cost).currentCost := by
  cases moves with
  | false => exact hs
  | true => exact hc

namespace Search

variable (S : Search ω σ κ)

theorem inWorld_ok_iff {α : Type} {act : Effect ω α} {p p' : Progress ω} {a : α} :
    inWorld act p = .ok a p' ↔ act p.world = .ok a p'.world ∧ p'.log = p.log := by
  rw [inWorld, Effect.inField_ok_iff]
  constructor
  · rintro ⟨part, h, rfl⟩
    exact ⟨h, rfl⟩
  · rintro ⟨h, hlog⟩
    exact ⟨p'.world, h, by rw [← hlog]⟩

/-- A verdict draws once at most, and nothing else happens to the world. -/
theorem settle_ok {draw : Effect ω Float} {verdict : Verdict} {w w' : ω} {moves : Bool}
    (h : verdict.settle draw w = .ok moves w') : w' = w ∨ ∃ u, draw w = .ok u w' := by
  cases verdict with
  | accepted | rejected =>
      cases h
      exact .inl rfl
  | chance probability =>
      obtain ⟨u, w₁, hu, h⟩ := Effect.bind_ok_iff.mp h
      cases h
      exact .inr ⟨u, hu⟩

/-- Deciding about a candidate draws once at most, and nothing else happens to the world. -/
theorem decideMove_ok {temperature : Float} {current new : κ} {w w' : ω} {move : Bool × Status}
    (h : S.decideMove temperature current new w = .ok move w') :
    w' = w ∨ ∃ u, S.draw w = .ok u w' := by
  obtain ⟨verdict, w₁, h₁, h⟩ := Effect.bind_ok_iff.mp h
  obtain ⟨-, rfl⟩ := Effect.ofExcept_ok_iff.mp h₁
  obtain ⟨moves, w₂, h₂, h⟩ := Effect.bind_ok_iff.mp h
  have hw : w' = w₂ := by
    cases moves with
    | true =>
        obtain ⟨better, w₃, h₃, h⟩ := Effect.bind_ok_iff.mp h
        obtain ⟨-, rfl⟩ := Effect.ofExcept_ok_iff.mp h₃
        cases h
        rfl
    | false =>
        cases h
        rfl
  rw [hw]
  exact settle_ok h₂

/-! ### One trial -/

/-- A trial in the world `w`: what came of it, the standing and the world after it. -/
inductive Attempted (temperature : Float) (s : Standing σ κ) (w : ω) :
    Status → Standing σ κ → ω → Prop where
  /-- The candidate costs less than the best state so far and is copied. -/
  | better {candidate best : σ} {k : κ} {moves : Bool} {status : Status} {w₁ w₂ w₃ w₄ : ω}
      (neighbor : S.neighbor s.current w = .ok candidate w₁)
      (cost : S.cost candidate w₁ = .ok k w₂)
      (move : S.decideMove temperature s.currentCost k w₂ = .ok (moves, status) w₃)
      (less : S.scale.less k s.bestCost = .ok true)
      (copy : S.copy candidate w₃ = .ok best w₄) :
      Attempted temperature s w .best { s.after moves candidate k with best, bestCost := k } w₄
  | other {candidate : σ} {k : κ} {moves : Bool} {status : Status} {w₁ w₂ w₃ : ω}
      (neighbor : S.neighbor s.current w = .ok candidate w₁)
      (cost : S.cost candidate w₁ = .ok k w₂)
      (move : S.decideMove temperature s.currentCost k w₂ = .ok (moves, status) w₃)
      (less : S.scale.less k s.bestCost = .ok false) :
      Attempted temperature s w status (s.after moves candidate k) w₃

/-- The log after a trial that ended at the standing `s`: one entry more if the trial is logged. -/
def Recorded (level : Nat) (temperature : Float) (s : Standing σ κ) (status : Status)
    (log log' : Array Trial) : Prop :=
  if S.isLogged s.trials then
    ∃ currentCost bestCost, S.scale.real s.currentCost = .ok currentCost ∧
      S.scale.real s.bestCost = .ok bestCost ∧
      log' = log.push { number := s.trials, level, temperature, currentCost, bestCost, status }
  else log' = log

theorem record_ok_iff {level : Nat} {temperature : Float} {s : Standing σ κ} {status : Status}
    {p p' : Progress ω} {u : Unit} :
    S.record level temperature s status p = .ok u p' ↔
      p'.world = p.world ∧ ∃ currentCost bestCost, S.scale.real s.currentCost = .ok currentCost ∧
        S.scale.real s.bestCost = .ok bestCost ∧
        p'.log = p.log.push { number := s.trials, level, temperature, currentCost, bestCost,
                              status } := by
  simp only [record, Effect.bind_ok_iff, Effect.ofExcept_ok_iff]
  constructor
  · rintro ⟨c, _, ⟨hc, rfl⟩, b, _, ⟨hb, rfl⟩, h⟩
    cases h
    exact ⟨rfl, c, b, hc, hb, rfl⟩
  · rintro ⟨hw, c, b, hc, hb, hlog⟩
    refine ⟨c, p, ⟨hc, rfl⟩, b, p, ⟨hb, rfl⟩, ?_⟩
    obtain ⟨world, log⟩ := p'
    cases hw
    cases hlog
    rfl

/-- The last step of a trial: the entry in the log if there is one, and the standing. -/
theorem logging_ok_iff {level : Nat} {temperature : Float} {s s' : Standing σ κ} {status : Status}
    {p p' : Progress ω} :
    (if S.isLogged s.trials then do
        S.record level temperature s status
        pure s
      else pure s : Effect (Progress ω) (Standing σ κ)) p = .ok s' p' ↔
      s = s' ∧ p'.world = p.world ∧ S.Recorded level temperature s status p.log p'.log := by
  unfold Recorded
  by_cases hl : S.isLogged s.trials
  · simp only [hl, if_true, Effect.bind_ok_iff, Effect.pure_apply, record_ok_iff]
    constructor
    · rintro ⟨_, _, ⟨hw, hr⟩, h⟩
      cases h
      exact ⟨rfl, hw, hr⟩
    · rintro ⟨rfl, hw, hr⟩
      exact ⟨(), p', ⟨hw, hr⟩, rfl⟩
  · simp only [hl, Bool.false_eq_true, if_false]
    constructor
    · intro h
      cases h
      exact ⟨rfl, rfl, rfl⟩
    · rintro ⟨rfl, hw, hr⟩
      obtain ⟨world, log⟩ := p'
      cases hw
      cases hr
      rfl

/-- **What one trial does.** -/
theorem attempt_ok_iff {level : Nat} {temperature : Float}
    {s s' : Standing σ κ} {p p' : Progress ω} :
    S.attempt level temperature s p = .ok s' p' ↔
      ∃ status, S.Attempted temperature s p.world status s' p'.world ∧
        S.Recorded level temperature s' status p.log p'.log := by
  have moved : ∀ (moves : Bool) (candidate : σ) (k : κ),
      (if moves then { s with trials := s.trials + 1, current := candidate, currentCost := k }
        else { s with trials := s.trials + 1 }) = s.after moves candidate k := fun _ _ _ => rfl
  simp only [attempt, Effect.bind_ok_iff, inWorld_ok_iff, Effect.ofExcept_ok_iff, moved,
    Standing.after_bestCost]
  constructor
  · rintro ⟨candidate, p₁, ⟨hn, l₁⟩, k, p₂, ⟨hc, l₂⟩, ⟨moves, status⟩, p₃, ⟨hm, l₃⟩, better, _,
      ⟨hl, rfl⟩, h⟩
    have hlog : p₃.log = p.log := l₃.trans (l₂.trans l₁)
    cases better with
    | true =>
        obtain ⟨best, p₄, hb, h⟩ := Effect.bind_ok_iff.mp h
        obtain ⟨hb, l₄⟩ := inWorld_ok_iff.mp hb
        obtain ⟨rfl, hw, hr⟩ := (S.logging_ok_iff
          (s := { s.after moves candidate k with best, bestCost := k })).mp h
        rw [l₄, hlog] at hr
        rw [← hw] at hb
        exact ⟨.best, .better hn hc hm hl hb, hr⟩
    | false =>
        obtain ⟨rfl, hw, hr⟩ := S.logging_ok_iff.mp h
        rw [hlog] at hr
        rw [← hw] at hm
        exact ⟨status, .other hn hc hm hl, hr⟩
  · rintro ⟨status, h, hr⟩
    cases h with
    | @better candidate best k moves status w₁ w₂ w₃ _ hn hc hm hl hb =>
        refine ⟨candidate, ⟨w₁, p.log⟩, ⟨hn, rfl⟩, k, ⟨w₂, p.log⟩, ⟨hc, rfl⟩, ⟨moves, status⟩,
          ⟨w₃, p.log⟩, ⟨hm, rfl⟩, true, _, ⟨hl, rfl⟩, ?_⟩
        exact Effect.bind_ok_iff.mpr ⟨best, ⟨p'.world, p.log⟩, inWorld_ok_iff.mpr ⟨hb, rfl⟩,
          (S.logging_ok_iff (s := { s.after moves candidate k with best, bestCost := k })).mpr
            ⟨rfl, rfl, hr⟩⟩
    | @other candidate k moves _ w₁ w₂ _ hn hc hm hl =>
        refine ⟨candidate, ⟨w₁, p.log⟩, ⟨hn, rfl⟩, k, ⟨w₂, p.log⟩, ⟨hc, rfl⟩, ⟨moves, status⟩,
          ⟨p'.world, p.log⟩, ⟨hm, rfl⟩, false, _, ⟨hl, rfl⟩, ?_⟩
        exact S.logging_ok_iff.mpr ⟨rfl, rfl, hr⟩

/-! ### The start -/

/-- Where a search starts: the initial state is copied, costed and copied again. -/
theorem start_ok_iff {initial : σ} {s : Standing σ κ} {w w' : ω} :
    S.start initial w = .ok s w' ↔
      ∃ current cost best w₁ w₂, S.copy initial w = .ok current w₁ ∧
        S.cost initial w₁ = .ok cost w₂ ∧ S.copy initial w₂ = .ok best w' ∧
        s = { trials := 0, current, currentCost := cost, best, bestCost := cost } := by
  simp only [start, Effect.bind_ok_iff]
  constructor
  · rintro ⟨current, w₁, h₁, cost, w₂, h₂, best, w₃, h₃, h⟩
    cases h
    exact ⟨current, cost, best, w₁, w₂, h₁, h₂, h₃, rfl⟩
  · rintro ⟨current, cost, best, w₁, w₂, h₁, h₂, h₃, rfl⟩
    exact ⟨current, w₁, h₁, cost, w₂, h₂, best, w', h₃, rfl⟩

/-! ### Runs that answer -/

variable {S} {I : Standing σ κ → ω → Prop}

theorem attempts_ok {level : Nat} {temperature : Float}
    (step : ∀ {s s' w w' status}, I s w → S.Attempted temperature s w status s' w' → I s' w') :
    ∀ {n : Nat} {s s' : Standing σ κ} {p p' : Progress ω}, I s p.world →
      S.attempts level temperature n s p = .ok s' p' → I s' p'.world := by
  intro n
  induction n with
  | zero =>
      intro s s' p p' hI h
      cases h
      exact hI
  | succ n ih =>
      intro s s' p p' hI h
      obtain ⟨s₁, p₁, h₁, h⟩ := Effect.bind_ok_iff.mp h
      obtain ⟨status, ha, -⟩ := S.attempt_ok_iff.mp h₁
      exact ih (step hI ha) h

theorem levels_ok {schedule : Schedule Float}
    (step : ∀ {temperature s s' w w' status}, I s w → S.Attempted temperature s w status s' w' →
      I s' w') :
    ∀ {fuel level : Nat} {temperature : Float} {s s' : Standing σ κ} {p p' : Progress ω},
      I s p.world →
      S.levels schedule fuel level temperature s p = .ok s' p' → I s' p'.world := by
  intro fuel
  induction fuel with
  | zero =>
      intro level temperature s s' p p' hI h
      cases h
  | succ fuel ih =>
      intro level temperature s s' p p' hI h
      obtain ⟨above, p₁, h₁, h⟩ := Effect.bind_ok_iff.mp h
      obtain ⟨-, rfl⟩ := Effect.ofExcept_ok_iff.mp h₁
      cases above with
      | true =>
          obtain ⟨s₂, p₂, h₂, h⟩ := Effect.bind_ok_iff.mp h
          obtain ⟨cooled, p₃, h₃, h⟩ := Effect.bind_ok_iff.mp h
          obtain ⟨-, rfl⟩ := Effect.ofExcept_ok_iff.mp h₃
          exact ih (attempts_ok step hI h₂) h
      | false =>
          cases h
          exact hI

/-- **What the start establishes and every trial keeps holds where a run ends.** -/
theorem run_ok {initial : σ} {s : Standing σ κ} {p p' : Progress ω}
    (start : ∀ {s w}, S.start initial p.world = .ok s w → I s w)
    (step : ∀ {temperature s s' w w' status}, I s w → S.Attempted temperature s w status s' w' →
      I s' w')
    (h : S.run initial p = .ok s p') : I s p'.world := by
  obtain ⟨s₁, p₁, h₁, h⟩ := Effect.bind_ok_iff.mp h
  obtain ⟨h₁, -⟩ := inWorld_ok_iff.mp h₁
  exact levels_ok step (start h₁) h

end Search

end Annealing
