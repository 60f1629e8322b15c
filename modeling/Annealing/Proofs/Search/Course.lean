import Annealing.Proofs.Schedule.Levels
import Annealing.Proofs.Search.Attempt

/-!
# Search — the course of a run

A run over a schedule that ends is nothing but its start and then one trial after the other, as many
at every level as the options ask for.  `Search.agenda` lists the levels and temperatures of these
trials, and `Search.course` makes them, so that what a run does can be proved by induction on a
list.

* `Search.run_eq_course`: a run over a schedule with the levels `ts` is the start and the course of
  the agenda of `ts`, whether it answers or fails.
* `Search.ends_of_run`: a run that answers has a schedule that ends.
* `Search.course_ok`: what every trial keeps holds where a course ends.
* `Search.course_log`: a course adds to the log entries of its own trials only.
* `Search.course_crossing`: where a count goes past a limit in a course, one trial takes it there.
-/

namespace Annealing.Search

variable {ω σ κ : Type} (S : Search ω σ κ)

/-- The level and the temperature of every trial, `count` of them at each level. -/
def agendaFrom (count : Nat) : Nat → List Float → List (Nat × Float)
  | _, [] => []
  | level, t :: ts => List.replicate count (level, t) ++ agendaFrom count (level + 1) ts

/-- The levels and temperatures of the trials over a schedule with these levels. -/
def agenda (ts : List Float) : List (Nat × Float) :=
  agendaFrom S.options.swapsPerTemperature.toNat 0 ts

/-- One trial after the other. -/
def course : List (Nat × Float) → Standing σ κ → Effect (Progress ω) (Standing σ κ)
  | [], s => pure s
  | (level, temperature) :: rest, s => do course rest (← S.attempt level temperature s)

theorem course_append (first rest : List (Nat × Float)) (s : Standing σ κ) :
    S.course (first ++ rest) s = S.course first s >>= S.course rest := by
  induction first generalizing s with
  | nil => exact (pure_bind s _).symm
  | cons due first ih =>
      simp only [List.cons_append, course, bind_assoc]
      exact bind_congr fun s' => ih s'

theorem attempts_eq_course (level : Nat) (temperature : Float) :
    ∀ (n : Nat) (s : Standing σ κ),
      S.attempts level temperature n s = S.course (List.replicate n (level, temperature)) s
  | 0, _ => rfl
  | n + 1, _ => bind_congr fun s' => attempts_eq_course level temperature n s'

/-- The levels of a schedule that ends are the course of their agenda, if there are less than the
fuel. -/
theorem levels_eq_course {schedule : Schedule Float} {temperature : Float} {ts : List Float}
    (h : schedule.Levels temperature ts) :
    ∀ {fuel level : Nat} {s : Standing σ κ}, ts.length < fuel →
      S.levels schedule fuel level temperature s =
        S.course (agendaFrom S.options.swapsPerTemperature.toNat level ts) s := by
  induction h with
  | stop h =>
      intro fuel level s hf
      obtain ⟨fuel, rfl⟩ :=
        Nat.exists_eq_add_one_of_ne_zero (Nat.ne_of_gt (Nat.lt_of_le_of_lt (Nat.zero_le _) hf))
      simp only [levels, h]
      rfl
  | @more t t' ts h c _ ih =>
      intro fuel level s hf
      obtain ⟨fuel, rfl⟩ :=
        Nat.exists_eq_add_one_of_ne_zero (Nat.ne_of_gt (Nat.lt_of_le_of_lt (Nat.zero_le _) hf))
      have hf' : ts.length < fuel := by simpa using hf
      simp only [levels, h, agendaFrom, course_append, c]
      rw [← attempts_eq_course]
      exact bind_congr fun s' => ih hf'

/-- **A run is its start and a course.** -/
theorem run_eq_course {ts : List Float}
    (h : S.options.schedule.Levels S.options.schedule.first ts) (initial : σ) :
    S.run initial = inWorld (S.start initial) >>= S.course (S.agenda ts) := by
  have hf : ts.length < Schedule.levelLimit + 1 := Nat.lt_succ_of_le h.length_le
  exact bind_congr fun s => S.levels_eq_course h hf

variable {S}

theorem levels_end {schedule : Schedule Float} :
    ∀ {fuel level : Nat} {temperature : Float} {s s' : Standing σ κ} {p p' : Progress ω},
      S.levels schedule fuel level temperature s p = .ok s' p' →
      ∃ ts, schedule.Levels temperature ts := by
  intro fuel
  induction fuel with
  | zero =>
      intro level temperature s s' p p' h
      cases h
  | succ fuel ih =>
      intro level temperature s s' p p' h
      obtain ⟨above, p₁, h₁, h⟩ := Effect.bind_ok_iff.mp h
      obtain ⟨habove, rfl⟩ := Effect.ofExcept_ok_iff.mp h₁
      cases above with
      | true =>
          obtain ⟨s₂, p₂, -, h⟩ := Effect.bind_ok_iff.mp h
          obtain ⟨cooled, p₃, h₃, h⟩ := Effect.bind_ok_iff.mp h
          obtain ⟨hcooled, rfl⟩ := Effect.ofExcept_ok_iff.mp h₃
          obtain ⟨ts, hts⟩ := ih h
          exact ⟨temperature :: ts, .more habove hcooled hts⟩
      | false => exact ⟨[], .stop habove⟩

/-- A run that answers has a schedule that ends. -/
theorem ends_of_run {initial : σ} {s : Standing σ κ} {p p' : Progress ω}
    (h : S.run initial p = .ok s p') :
    S.options.schedule.Ends := by
  obtain ⟨s₁, p₁, -, h⟩ := Effect.bind_ok_iff.mp h
  exact levels_end h

/-- What every trial keeps holds where a course ends. -/
theorem course_ok {I : Standing σ κ → Progress ω → Prop}
    (step : ∀ {level temperature s s' p p'}, I s p → S.attempt level temperature s p = .ok s' p' →
      I s' p') :
    ∀ {due : List (Nat × Float)} {s s' : Standing σ κ} {p p' : Progress ω}, I s p →
      S.course due s p = .ok s' p' → I s' p' := by
  intro due
  induction due with
  | nil =>
      intro s s' p p' hI h
      cases h
      exact hI
  | cons due rest ih =>
      intro s s' p p' hI h
      obtain ⟨s₁, p₁, h₁, h⟩ := Effect.bind_ok_iff.mp h
      exact ih (step hI h₁) h

/-- A trial adds one entry to the log at most, under its own number. -/
theorem attempt_log {level : Nat} {temperature : Float} {s s' : Standing σ κ} {p p' : Progress ω}
    (h : S.attempt level temperature s p = .ok s' p') :
    s'.trials = s.trials + 1 ∧
      (p'.log = p.log ∨ ∃ entry, entry.number = s'.trials ∧ p'.log = p.log.push entry) := by
  obtain ⟨status, attempted, recorded⟩ := S.attempt_ok_iff.mp h
  constructor
  · cases attempted with
    | @better _ _ _ moves => cases moves <;> rfl
    | @other _ _ moves => cases moves <;> rfl
  · unfold Recorded at recorded
    split at recorded
    · obtain ⟨currentCost, bestCost, -, -, hlog⟩ := recorded
      exact .inr ⟨_, rfl, hlog⟩
    · exact .inl recorded

/-- **A course adds to the log entries of its own trials only.** -/
theorem course_log {due : List (Nat × Float)} {s s' : Standing σ κ} {p p' : Progress ω}
    (h : S.course due s p = .ok s' p') :
    ∃ later, p'.log.toList = p.log.toList ++ later ∧
      ∀ entry ∈ later, s.trials < entry.number ∧ entry.number ≤ s'.trials := by
  -- the number of trials does not decrease, which the induction needs to know too
  have logged : s.trials ≤ s'.trials ∧ ∃ later, p'.log.toList = p.log.toList ++ later ∧
      ∀ entry ∈ later, s.trials < entry.number ∧ entry.number ≤ s'.trials := by
    refine S.course_ok (I := fun s' p' => s.trials ≤ s'.trials ∧
      ∃ later, p'.log.toList = p.log.toList ++ later ∧
      ∀ entry ∈ later, s.trials < entry.number ∧ entry.number ≤ s'.trials) ?_
      ⟨Nat.le_refl _, [], (List.append_nil _).symm, by simp⟩ h
    rintro level temperature s₁ s₂ p₁ p₂ ⟨le, later, hlog, numbers⟩ h
    obtain ⟨trials, recorded⟩ := S.attempt_log h
    refine ⟨by omega, ?_⟩
    rcases recorded with same | ⟨entry, number, pushed⟩
    · exact ⟨later, by rw [same, hlog],
        fun e he => ⟨(numbers e he).1, by have := (numbers e he).2; omega⟩⟩
    · refine ⟨later ++ [entry],
        by rw [pushed, Array.toList_push, hlog, List.append_assoc], fun e he => ?_⟩
      rcases List.mem_append.mp he with he | he
      · have := numbers e he
        omega
      · obtain rfl := List.mem_singleton.mp he
        omega
  exact logged.2

/-- **Where a count goes past a limit in a course, one trial takes it there.** -/
theorem course_crossing (count : Progress ω → Nat) {limit : Nat} :
    ∀ {due : List (Nat × Float)} {s s' : Standing σ κ} {p p' : Progress ω},
      S.course due s p = .ok s' p' →
      count p < limit → limit ≤ count p' →
      ∃ before level temperature after s₁ p₁ s₂ p₂, due = before ++ (level, temperature) :: after ∧
        S.course before s p = .ok s₁ p₁ ∧ count p₁ < limit ∧
        S.attempt level temperature s₁ p₁ = .ok s₂ p₂ ∧ limit ≤ count p₂ ∧
        S.course after s₂ p₂ = .ok s' p' := by
  intro due
  induction due with
  | nil =>
      intro s s' p p' h below above
      cases h
      omega
  | cons due rest ih =>
      intro s s' p p' h below above
      obtain ⟨level, temperature⟩ := due
      obtain ⟨s₁, p₁, h₁, h⟩ := Effect.bind_ok_iff.mp h
      by_cases crossed : limit ≤ count p₁
      · exact ⟨[], level, temperature, rest, s, p, s₁, p₁, rfl, rfl, below, h₁, crossed, h⟩
      · obtain ⟨before, level', temperature', after, s₂, p₂, s₃, p₃, rfl, hb, hc, ha, hd, he⟩ :=
          ih h (Nat.lt_of_not_le crossed) above
        refine ⟨(level, temperature) :: before, level', temperature', after, s₂, p₂, s₃, p₃, rfl,
          ?_, hc, ha, hd, he⟩
        exact Effect.bind_ok_iff.mpr ⟨s₁, p₁, h₁, hb⟩

end Annealing.Search
