import Annealing.Proofs.Search.Agenda

/-!
# Search — thinned logs

A search looks at its log only to add to it.  So it goes the same way whatever it logs: every trial,
one of so many, or none.  `Search.recording` is the same search with another rule of what is logged,
and all of these searches are compared with the one that logs every trial.

* `Search.attempt_recording`, `Search.course_recording`: where the trials of one that logs
  everything answer, those of any other answer too, with the same standing and in the same world,
  and log the entries that they are to log.
* `thinned_length`: how many of the first numbers are one or divisible by a period.
* `Search.run_recording`: the run of any of these searches by the run of the one that logs every
  trial.
-/

namespace Annealing

/-- Whether the trial of a number is logged with this period. -/
def KeptBy (period : Int) (number : Nat) : Prop := number = 1 ∨ max 1 period ∣ (number : Int)

instance (period : Int) (number : Nat) : Decidable (KeptBy period number) :=
  inferInstanceAs (Decidable (_ ∨ _))

/-! ### The number of entries -/

/-- With a period of one at most, everything is kept. -/
theorem keptBy_of_le_one {period : Int} (h : period ≤ 1) (number : Nat) : KeptBy period number :=
  .inr (by rw [max_eq_left h]; exact Int.one_dvd _)

/-- With a larger period, the first number is kept, and of the others those that the period
divides. -/
theorem keptBy_succ_iff {period : Int} (h : 1 < period) (n : Nat) :
    KeptBy period (n + 1) ↔ n = 0 ∨ period.toNat ∣ n + 1 := by
  have natural : (period.toNat : Int) = period := Int.toNat_of_nonneg (by omega)
  rw [KeptBy, max_eq_right h.le, ← natural, Int.natCast_dvd_natCast, Int.toNat_natCast,
    Nat.add_eq_right]

/-- **How many of the numbers up to `n` are kept.** -/
theorem thinned_length (period : Int) (n : Nat) :
    ((List.range' 1 n).filter fun number => KeptBy period number).length =
      if n = 0 then 0 else if period ≤ 1 then n else 1 + n / period.toNat := by
  by_cases small : period ≤ 1
  · have all :
        (List.range' 1 n).filter (fun number => decide (KeptBy period number)) = List.range' 1 n :=
      List.filter_eq_self.mpr fun number _ => decide_eq_true (keptBy_of_le_one small number)
    rw [all, List.length_range', if_pos small]
    split <;> omega
  · have large : 1 < period := Int.not_le.mp small
    have divisor : 2 ≤ period.toNat := by omega
    simp only [if_neg small]
    induction n with
    | zero => rfl
    | succ n ih =>
        rw [List.range'_1_concat, List.filter_append, List.length_append, ih, Nat.add_comm 1 n,
          if_neg n.succ_ne_zero, Nat.succ_div]
        simp only [List.filter_singleton, keptBy_succ_iff large]
        -- the first number is kept without being divisible
        by_cases first : n = 0
        · subst first
          have apart : ¬ period.toNat ∣ 0 + 1 := fun divides => by
            have := Nat.le_of_dvd Nat.one_pos divides
            omega
          simp [apart]
        · by_cases divides : period.toNat ∣ n + 1 <;> simp [first, divides, Nat.add_assoc]

namespace Search

variable {ω σ κ : Type} (S : Search ω σ κ)

/-- The same search, logging or not, with another period. -/
def recording (logging : Bool) (period : Int) : Search ω σ κ :=
  { S with logging, options := { S.options with logPeriod := period } }

theorem isLogged_recording (logging : Bool) (period : Int) (number : Nat) :
    (S.recording logging period).isLogged number = (logging && decide (KeptBy period number)) := by
  have natural : ((max 1 period.toNat : Nat) : Int) = max 1 period := by omega
  have kept : KeptBy period number ↔ (number % max 1 period.toNat == 0 || number == 1) = true := by
    rw [KeptBy, ← natural, Int.natCast_dvd_natCast, Nat.dvd_iff_mod_eq_zero, Bool.or_eq_true,
      beq_iff_eq, beq_iff_eq, or_comm]
  simp only [kept, Bool.decide_eq_true]
  rfl

variable {S} {s s' : Standing σ κ} {p p' : Progress ω}

/-! ### Trials -/

/-- **A trial does the same whatever is logged of it.** -/
theorem attempt_recording {level : Nat} {temperature : Float}
    (h : (S.recording true 1).attempt level temperature s p = .ok s' p') :
    ∃ row, row.number = s'.trials ∧ s'.trials = s.trials + 1 ∧ p'.log = p.log.push row ∧
      ∀ logging period log,
        (S.recording logging period).attempt level temperature s ⟨p.world, log⟩ =
        .ok s' ⟨p'.world,
          if (S.recording logging period).isLogged row.number then log.push row else log⟩ := by
  obtain ⟨trials, -⟩ := (S.recording true 1).attempt_log h
  obtain ⟨status, attempted, recorded⟩ := (S.recording true 1).attempt_ok_iff.mp h
  have logged : (S.recording true 1).isLogged s'.trials = true := by
    rw [isLogged_recording]
    exact decide_eq_true (keptBy_of_le_one le_rfl _)
  rw [Recorded, if_pos logged] at recorded
  obtain ⟨currentCost, bestCost, current, best, pushed⟩ := recorded
  refine ⟨_, rfl, trials, pushed, fun logging period log => ?_⟩
  refine (S.recording logging period).attempt_ok_iff.mpr ⟨status, ?_, ?_⟩
  · cases attempted with
    | better neighbor cost move less copy => exact .better neighbor cost move less copy
    | other neighbor cost move less => exact .other neighbor cost move less
  · unfold Recorded
    split
    · exact ⟨currentCost, bestCost, current, best, rfl⟩
    · rfl

/-- **A course goes the same way whatever is logged of it.** -/
theorem course_recording {due : List (Nat × Float)} : ∀ {s : Standing σ κ} {p : Progress ω},
    (S.recording true 1).course due s p = .ok s' p' →
      ∃ rows : List Trial, p'.log = p.log ++ rows ∧
        rows.map Trial.number = List.range' (s.trials + 1) due.length ∧
        ∀ logging period log, (S.recording logging period).course due s ⟨p.world, log⟩ =
          .ok s' ⟨p'.world,
            log ++ rows.filter fun row => (S.recording logging period).isLogged row.number⟩ := by
  induction due with
  | nil =>
      intro s p h
      cases h
      exact ⟨[], rfl, rfl, fun _ _ _ => rfl⟩
  | cons trial due ih =>
      intro s p h
      obtain ⟨s₁, p₁, h₁, h⟩ := Effect.bind_ok_iff.mp h
      obtain ⟨row, number, trials, log₁, same₁⟩ := attempt_recording h₁
      obtain ⟨rows, log, numbers, same⟩ := ih h
      refine ⟨row :: rows, ?_, ?_, fun logging period earlier => ?_⟩
      · rw [log, log₁]
        rfl
      · rw [List.map_cons, numbers, number, trials, List.length_cons, List.range'_succ]
      · refine Effect.bind_ok_iff.mpr ⟨s₁, _, same₁ logging period earlier, ?_⟩
        rw [same, List.filter_cons]
        split <;> rfl

/-! ### Runs -/

/-- The search `S` goes from the initial state to `s` and the world `w`, with this journal, and adds
these entries to the log. -/
structure Goes (S : Search ω σ κ) (initial : σ) (p : Progress ω) (s : Standing σ κ) (w : ω)
    (journal : List (Call σ κ)) (rows : List Trial) : Prop where
  run : S.run initial p = .ok s ⟨w, p.log ++ rows⟩
  journal : S.journal initial p = journal

/-- **What is logged does not influence the search, and thinning keeps the promised trials.** -/
theorem run_recording {initial : σ} (h : (S.recording true 1).run initial p = .ok s p') :
    let journal := (S.recording true 1).journal initial p
    let trials := (Journal.generated journal).length
    ∃ rows : List Trial, p'.log = p.log ++ rows ∧ rows.map Trial.number = List.range' 1 trials ∧
      ∀ period : Int,
        let kept := rows.filter fun row => row.number = 1 ∨ max 1 period ∣ (row.number : Int)
        Goes (S.recording true period) initial p s p'.world journal kept ∧
          Goes (S.recording false period) initial p s p'.world journal [] ∧
          kept.length = if trials = 0 then 0 else if period ≤ 1 then trials
            else 1 + trials / period.toNat := by
  intro journal trials
  obtain ⟨ts, s₀, q₀, levels, started, log, course⟩ := run_parts h
  obtain ⟨rows, logged, numbers, same⟩ := S.watched.course_recording course
  obtain ⟨current, k, best, rfl, -⟩ := (S.recording true 1).start_noted started
  have count : ((S.recording true 1).agenda ts).length = trials := by
    have made := (course_rows course).1
    rw [Nat.zero_add] at made
    exact made.symm.trans (run_counts h).1.symm
  rw [count] at numbers
  have goes : ∀ logging period, Goes (S.recording logging period) initial p s p'.world journal
      (rows.filter fun row => logging && decide (KeptBy period row.number)) := by
    intro logging period
    have run : (S.recording logging period).watched.run initial (unopened p) =
        .ok s ⟨⟨p'.world, journal⟩,
        p.log ++ rows.filter fun row => (S.recording logging period).isLogged row.number⟩ := by
      rw [(S.recording logging period).watched.run_eq_course levels]
      exact Effect.bind_ok_iff.mpr ⟨_, ⟨q₀.world, p.log⟩, inWorld_ok_iff.mpr ⟨started, rfl⟩,
        same logging period p.log⟩
    simp only [isLogged_recording] at run
    obtain ⟨run, noted⟩ := run_of_watched run
    exact ⟨run, noted⟩
  refine ⟨rows, by rw [← log]; exact logged, numbers, fun period => ⟨goes true period, ?_, ?_⟩⟩
  · have none : rows.filter (fun row => false && decide (KeptBy period row.number)) = [] :=
      List.filter_eq_nil_iff.mpr fun row _ => by simp
    rw [← none]
    exact goes false period
  · rw [← thinned_length, ← numbers, List.filter_map, List.length_map]
    rfl

theorem coldWalk_recording :
    let S := coldWalk.recording true 1
    ∃ s, ∃ p' : Progress Journal, S.run 0 ⟨{ cells := #[0] }, #[]⟩ = .ok s p' ∧
      ∃ rows : List Trial, p'.log = (#[] : Array Trial) ++ rows ∧
        Goes (coldWalk.recording true 3) 0 ⟨{ cells := #[0] }, #[]⟩ s p'.world
          (S.journal 0 ⟨{ cells := #[0] }, #[]⟩)
          (rows.filter fun row => row.number = 1 ∨ max 1 3 ∣ (row.number : Int)) := by
  obtain ⟨s, p', run⟩ := coldWalk_answers
  obtain ⟨rows, log, -, thinned⟩ := run_recording (S := coldWalk) run
  exact ⟨s, p', run, rows, log, (thinned 3).1⟩

end Search

end Annealing
