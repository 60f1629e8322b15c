import Annealing.Proofs.Search.Thinning

/-!
# Search — the log of a run that answers

Three paths lead to the number of trials: the schedule that is counted, the loop over its levels,
and the entries that are left in the log.  They agree.

* `Search.run_counted`: the trials of a run are as many levels as the schedule counts, times the
  trials of a level, and the log grows by those of them that are kept.
* `Search.run_last`: if the last trial is kept, its entry is the last one, and shows the best cost
  of the run.
-/

namespace Annealing.Search

variable {ω σ κ : Type} {S : Search ω σ κ} {s s' : Standing σ κ} {p p' : Progress ω} {initial : σ}

/-- A search that logs keeps what its period asks for. -/
theorem isLogged_eq (logs : S.logging = true) (number : Nat) :
    S.isLogged number = decide (KeptBy S.options.logPeriod number) := by
  have same : S.isLogged number = (S.recording true S.options.logPeriod).isLogged number := by
    rw [← logs]
    rfl
  rw [same, isLogged_recording, Bool.true_and]

/-- A run that answers is its start, with no trial made, and the course over the levels that are
counted. -/
theorem run_course (h : S.run initial p = .ok s p') :
    ∃ ts s₀ p₀, S.options.schedule.length = .ok ts.length ∧ s₀.trials = 0 ∧ p₀.log = p.log ∧
      S.course (S.agenda ts) s₀ p₀ = .ok s p' := by
  obtain ⟨ts, levels⟩ := ends_of_run h
  rw [S.run_eq_course levels] at h
  obtain ⟨s₀, p₀, started, course⟩ := Effect.bind_ok_iff.mp h
  obtain ⟨started, log⟩ := inWorld_ok_iff.mp started
  obtain ⟨current, k, best, -, -, -, -, -, rfl⟩ := S.start_ok_iff.mp started
  exact ⟨ts, _, p₀, levels.length_eq, rfl, log, course⟩

theorem length_agenda (S : Search ω σ κ) (ts : List Float) :
    (S.agenda ts).length = ts.length * S.options.swapsPerTemperature.toNat := by
  have each : ∀ (count level : Nat), (agendaFrom count level ts).length = ts.length * count := by
    intro count
    induction ts with
    | nil => simp [agendaFrom]
    | cons t ts ih =>
        intro level
        rw [agendaFrom, List.length_append, List.length_replicate, ih, List.length_cons,
          Nat.succ_mul, Nat.add_comm]
  exact each _ 0

/-- **The schedule, the loop and the log count the same trials.** -/
theorem run_counted (logs : S.logging = true) (h : S.run initial p = .ok s p') :
    ∃ levels, S.options.schedule.length = .ok levels ∧
      s.trials = levels * S.options.swapsPerTemperature.toNat ∧
      p'.log.size = p.log.size + if s.trials = 0 then 0
        else if S.options.logPeriod ≤ 1 then s.trials else
        1 + s.trials / S.options.logPeriod.toNat := by
  obtain ⟨ts, s₀, p₀, counted, zero, log, course⟩ := run_course h
  obtain ⟨trials, rows, rest, stamps⟩ := course_rows course
  rw [zero, Nat.zero_add] at trials
  rw [zero, Nat.zero_add] at stamps
  -- the entries of the course carry the numbers of the trials that are kept, and no others
  have kept : rows.length =
      ((List.range' 1 s.trials).filter fun number => KeptBy S.options.logPeriod number).length := by
    have numbers :=
      congrArg (fun stamps : List ((Nat × Float) × Nat) => (stamps.map Prod.snd).length) stamps
    rw [List.map_map, List.length_map] at numbers
    rw [numbers, trials, ← List.zipIdx_map_snd 1 (S.agenda ts), List.filter_map, List.length_map,
      List.length_map]
    simp only [isLogged_eq logs, Function.comp_def]
  refine ⟨ts.length, counted, trials.trans (S.length_agenda ts), ?_⟩
  rw [← thinned_length, ← kept, ← log, ← Array.length_toList, rest, List.length_append,
    Array.length_toList]

/-- A trial that is kept leaves the last entry of the log, with its number and the best cost behind
it. -/
theorem attempt_last {level : Nat} {temperature : Float}
    (h : S.attempt level temperature s p = .ok s' p') (logged : S.isLogged s'.trials = true) :
    ∃ row, p'.log.back? = some row ∧ row.number = s'.trials ∧
      S.scale.real s'.bestCost = .ok row.bestCost := by
  obtain ⟨status, -, recorded⟩ := S.attempt_ok_iff.mp h
  rw [Recorded, if_pos logged] at recorded
  obtain ⟨currentCost, bestCost, -, best, pushed⟩ := recorded
  exact ⟨_, by rw [pushed, Array.back?_push], rfl, best⟩

/-- **The entry of the last trial is the last one**, and shows the best cost of the run. -/
theorem run_last (logs : S.logging = true) (h : S.run initial p = .ok s p') (made : s.trials ≠ 0)
    (kept : KeptBy S.options.logPeriod s.trials) :
    ∃ row, p'.log.back? = some row ∧ row.number = s.trials ∧
      S.scale.real s.bestCost = .ok row.bestCost := by
  obtain ⟨ts, s₀, p₀, -, zero, -, course⟩ := run_course h
  have last := S.course_ok (I := fun s p => s.trials ≠ 0 → S.isLogged s.trials = true →
    ∃ row, p.log.back? = some row ∧ row.number = s.trials ∧
      S.scale.real s.bestCost = .ok row.bestCost)
    (fun _ attempted _ logged => attempt_last attempted logged)
    (fun other => absurd zero other) course
  exact last made (by rw [isLogged_eq logs]; exact decide_eq_true kept)

end Annealing.Search
