import Annealing.Proofs.Schedule.Levels
import Annealing.Proofs.Search.Attempt

/-!
# Search — runs that come to an end

A search whose schedule is finite comes to an end: the levels that `Search.levels` may go through
are more than any finite schedule of doubles has (`Schedule.Levels.length_le`).  What remains is
that no single step fails.

* `Search.run_answers`: if the start answers, and every trial answers from a standing of which an
  invariant holds, then a search with a finite schedule answers, and the invariant holds where it
  ends.
-/

namespace Annealing.Search

variable {ω σ κ : Type} {S : Search ω σ κ} {I : Standing σ κ → ω → Prop}

/-! ### Steps that answer -/

/-- Deciding about a candidate answers if the rule, the comparison and the draw it may ask for
do. -/
theorem decideMove_answers {temperature : Float} {current new : κ} {w : ω}
    (judged : ∃ verdict, S.scale.judge current new temperature = .ok verdict)
    (drawn : ∃ u w', S.draw w = .ok u w')
    (compared : ∃ better, S.scale.less new current = .ok better) :
    ∃ move w', S.decideMove temperature current new w = .ok move w' := by
  obtain ⟨verdict, hv⟩ := judged
  obtain ⟨moves, w₁, hm⟩ : ∃ moves w₁, verdict.settle S.draw w = .ok moves w₁ := by
    cases verdict with
    | accepted => exact ⟨true, w, rfl⟩
    | rejected => exact ⟨false, w, rfl⟩
    | chance p =>
        obtain ⟨u, w₁, hu⟩ := drawn
        exact ⟨_, w₁, Effect.bind_ok_iff.mpr ⟨u, w₁, hu, rfl⟩⟩
  have first : Effect.ofExcept (S.scale.judge current new temperature) w = .ok verdict w :=
    Effect.ofExcept_ok_iff.mpr ⟨hv, rfl⟩
  cases moves with
  | false =>
      exact ⟨(false, .reject), w₁, Effect.bind_ok_iff.mpr ⟨verdict, w, first,
        Effect.bind_ok_iff.mpr ⟨false, w₁, hm, rfl⟩⟩⟩
  | true =>
      obtain ⟨better, hb⟩ := compared
      refine ⟨(true, if better then .improve else .accept), w₁, Effect.bind_ok_iff.mpr ⟨verdict, w,
        first,
        Effect.bind_ok_iff.mpr ⟨true, w₁, hm, ?_⟩⟩⟩
      exact Effect.bind_ok_iff.mpr ⟨better, w₁, Effect.ofExcept_ok_iff.mpr ⟨hb, rfl⟩, rfl⟩

/-- A trial that comes to its end answers if the costs after it can be logged. -/
theorem attempt_of_attempted (level : Nat) {temperature : Float} {s s' : Standing σ κ}
    {p : Progress ω} {w' : ω} {status : Status}
    (attempted : S.Attempted temperature s p.world status s' w')
    (current : ∃ x, S.scale.real s'.currentCost = .ok x)
    (best : ∃ x, S.scale.real s'.bestCost = .ok x) :
    ∃ log, S.attempt level temperature s p = .ok s' ⟨w', log⟩ := by
  obtain ⟨log, recorded⟩ : ∃ log, S.Recorded level temperature s' status p.log log := by
    unfold Recorded
    split
    · obtain ⟨c, hc⟩ := current
      obtain ⟨b, hb⟩ := best
      exact ⟨_, c, b, hc, hb, rfl⟩
    · exact ⟨p.log, rfl⟩
  exact ⟨log, S.attempt_ok_iff.mpr ⟨status, attempted, recorded⟩⟩

/-! ### Runs that answer -/

theorem attempts_answer {level : Nat} {temperature : Float}
    (step : ∀ {s p}, I s p.world →
      ∃ s' p', S.attempt level temperature s p = .ok s' p' ∧ I s' p'.world) :
    ∀ (n : Nat) {s : Standing σ κ} {p : Progress ω}, I s p.world →
      ∃ s' p', S.attempts level temperature n s p = .ok s' p' ∧ I s' p'.world := by
  intro n
  induction n with
  | zero =>
      intro s p hI
      exact ⟨s, p, rfl, hI⟩
  | succ n ih =>
      intro s p hI
      obtain ⟨s₁, p₁, h₁, hI₁⟩ := step hI
      obtain ⟨s₂, p₂, h₂, hI₂⟩ := ih hI₁
      exact ⟨s₂, p₂, Effect.bind_ok_iff.mpr ⟨s₁, p₁, h₁, h₂⟩, hI₂⟩

theorem levels_answer {schedule : Schedule Float}
    (step : ∀ {level temperature s p}, I s p.world →
      ∃ s' p', S.attempt level temperature s p = .ok s' p' ∧ I s' p'.world)
    {temperature : Float} {ts : List Float} (h : schedule.Levels temperature ts) :
    ∀ {fuel level : Nat} {s : Standing σ κ} {p : Progress ω}, ts.length < fuel → I s p.world →
      ∃ s' p', S.levels schedule fuel level temperature s p = .ok s' p' ∧ I s' p'.world := by
  induction h with
  | stop h =>
      intro fuel level s p hf hI
      obtain ⟨fuel, rfl⟩ : ∃ n, fuel = n + 1 := ⟨fuel - 1, by omega⟩
      exact ⟨s, p, by simp [levels, h, Effect.ofExcept, bind, EStateM.bind], hI⟩
  | @more t t' ts h c _ ih =>
      intro fuel level s p hf hI
      obtain ⟨fuel, rfl⟩ : ∃ n, fuel = n + 1 := ⟨fuel - 1, by omega⟩
      have hf' : ts.length < fuel := by simpa using hf
      obtain ⟨s₁, p₁, h₁, hI₁⟩ := attempts_answer step S.options.swapsPerTemperature.toNat hI
      obtain ⟨s₂, p₂, h₂, hI₂⟩ := @ih fuel (level + 1) s₁ p₁ hf' hI₁
      refine ⟨s₂, p₂, ?_, hI₂⟩
      refine Effect.bind_ok_iff.mpr ⟨true, p, Effect.ofExcept_ok_iff.mpr ⟨h, rfl⟩, ?_⟩
      refine Effect.bind_ok_iff.mpr ⟨s₁, p₁, h₁, ?_⟩
      exact Effect.bind_ok_iff.mpr ⟨t', p₁, Effect.ofExcept_ok_iff.mpr ⟨c, rfl⟩, h₂⟩

/-- **A search with a finite schedule whose steps all answer comes to an end.** -/
theorem run_answers (ends : S.options.schedule.Ends) {initial : σ} {p : Progress ω}
    (start : ∃ s w, S.start initial p.world = .ok s w ∧ I s w)
    (step : ∀ {level temperature s p}, I s p.world →
      ∃ s' p', S.attempt level temperature s p = .ok s' p' ∧ I s' p'.world) :
    ∃ s p', S.run initial p = .ok s p' ∧ I s p'.world := by
  obtain ⟨s₁, w₁, h₁, hI⟩ := start
  obtain ⟨ts, hts⟩ := ends
  have hf : ts.length < Schedule.levelLimit + 1 := Nat.lt_succ_of_le hts.length_le
  obtain ⟨s, p', h, hI'⟩ := @levels_answer _ _ _ S I _ step _ ts hts _ 0 s₁ ⟨w₁, p.log⟩ hf hI
  exact ⟨s, p', Effect.bind_ok_iff.mpr ⟨s₁, ⟨w₁, p.log⟩, inWorld_ok_iff.mpr ⟨h₁, rfl⟩, h⟩, hI'⟩

end Annealing.Search
