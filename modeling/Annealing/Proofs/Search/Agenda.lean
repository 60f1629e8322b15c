import Annealing.Proofs.Schedule.Cooling
import Annealing.Proofs.Search.Transcript
import Annealing.Search.Script

/-!
# Search — the trial of a number

The trials of a run are numbered through, over all levels.  With `n` trials at every level, the
trial behind the first `t` ones belongs to the level `t / n`, and its temperature is the initial one
cooled so many times (`Options.temperatureAt`).  A run is therefore one loop over the numbers of its
trials, whatever the strategy does in them (`Search.run_eq_loop`).

* `Options.levels_eq`: the levels of the schedule are the temperatures that are reached, as far as
  they are above the minimum.
* `Search.agenda_eq`: the level and the temperature of the trial of a number.
* `Search.course_rows`: a course logs those of its trials that are to be logged, each of them under
  its number, level and temperature.
* `Search.run_accounted`: how many trials a run makes, how often it calls the strategy, and what its
  entries in the log say about level and temperature.
-/

namespace Annealing

/-! ### The levels of a schedule -/

namespace Options

/-- The initial temperature, cooled a number of times. -/
def temperatureAt (o : Options) : Nat → Float
  | 0 => o.initialTemperature
  | k + 1 => o.temperatureAt k * o.coolingFactor

/-- **The levels are the temperatures that are reached, as far as they are above the minimum.** -/
theorem levels_eq {o : Options} {t : Float} {ts : List Float} (h : o.schedule.Levels t ts) :
    ∀ {k : Nat}, o.temperatureAt k = t →
      ts = (List.range' k ts.length).map o.temperatureAt ∧ (∀ t ∈ ts, t > o.minimumTemperature) ∧
        ¬ o.temperatureAt (k + ts.length) > o.minimumTemperature := by
  induction h with
  | @stop t above =>
      rintro k rfl
      exact ⟨rfl, by simp, of_decide_eq_false (Except.ok.inj above)⟩
  | @more t t' ts above cooled _ ih =>
      rintro k rfl
      have next : o.temperatureAt (k + 1) = t' := Except.ok.inj cooled
      obtain ⟨levels, warm, cold⟩ := ih next
      refine ⟨?_, ?_, ?_⟩
      · rw [List.length_cons, List.range'_succ, List.map_cons, ← levels]
      · exact List.forall_mem_cons.mpr ⟨of_decide_eq_true (Except.ok.inj above), warm⟩
      · rwa [List.length_cons, ← Nat.add_assoc, Nat.add_right_comm]

end Options

namespace Search

variable {ω σ κ : Type} (S : Search ω σ κ)

/-! ### The trial of a number -/

/-- The trials of the levels from `level` on are those whose numbers go by `n` into these levels. -/
theorem agendaFrom_eq (temperature : Nat → Float) (n : Nat) :
    ∀ (L level : Nat), agendaFrom n level ((List.range' level L).map temperature) =
      (List.range' (level * n) (L * n)).map fun t => (t / n, temperature (t / n)) := by
  intro L
  induction L with
  | zero =>
      intro level
      rw [Nat.zero_mul]
      rfl
  | succ L ih =>
      intro level
      have own : (List.range' (level * n) n).map (fun t => (t / n, temperature (t / n))) =
          List.replicate n (level, temperature level) := by
        refine List.eq_replicate_iff.mpr ⟨by simp, fun due hdue => ?_⟩
        obtain ⟨t, ht, rfl⟩ := List.mem_map.mp hdue
        obtain ⟨lower, upper⟩ := List.mem_range'_1.mp ht
        have division : t / n = level := Nat.div_eq_of_lt_le lower (by rwa [Nat.succ_mul])
        rw [division]
      have parted : List.range' (level * n) ((L + 1) * n) =
          List.range' (level * n) n ++ List.range' ((level + 1) * n) (L * n) := by
        rw [Nat.succ_mul L n, Nat.succ_mul level n, Nat.add_comm (L * n) n, List.range'_append_1]
      rw [List.range'_succ, List.map_cons, agendaFrom, ih, parted, List.map_append, own]

theorem agenda_eq (temperature : Nat → Float) (L : Nat) :
    S.agenda ((List.range' 0 L).map temperature) =
      (List.range (L * S.options.swapsPerTemperature.toNat)).map fun t =>
        (t / S.options.swapsPerTemperature.toNat,
          temperature (t / S.options.swapsPerTemperature.toNat)) := by
  rw [agenda, agendaFrom_eq, Nat.zero_mul, List.range_eq_range']

theorem course_eq_foldlM (due : List (Nat × Float)) :
    ∀ s : Standing σ κ, S.course due s =
      due.foldlM (fun s trial => S.attempt trial.1 trial.2 s) s := by
  induction due with
  | nil => exact fun _ => rfl
  | cons trial due ih => exact fun s => bind_congr fun s' => ih s'

/-- **A run is a loop over the numbers of its trials.** -/
theorem run_eq_loop {L : Nat}
    (h : S.options.schedule.Levels S.options.schedule.first
      ((List.range' 0 L).map S.options.temperatureAt))
    (initial : σ) :
    S.run initial = inWorld (S.start initial) >>= fun s =>
      (List.range (L * S.options.swapsPerTemperature.toNat)).foldlM (fun s t =>
        S.attempt (t / S.options.swapsPerTemperature.toNat)
          (S.options.temperatureAt (t / S.options.swapsPerTemperature.toNat)) s) s := by
  rw [S.run_eq_course h, agenda_eq]
  refine bind_congr fun s => ?_
  rw [course_eq_foldlM, List.foldlM_map]

/-! ### The entries of a course -/

end Search

/-- The level and the temperature of an entry, and its number. -/
def Trial.stamp (row : Trial) : (Nat × Float) × Nat := ((row.level, row.temperature), row.number)

namespace Search

variable {ω σ κ : Type} {S : Search ω σ κ} {s s' : Standing σ κ} {p p' : Progress ω}

/-- A trial that is to be logged is logged under its number, level and temperature. -/
theorem attempt_rows {level : Nat} {temperature : Float}
    (h : S.attempt level temperature s p = .ok s' p') :
    s'.trials = s.trials + 1 ∧ ∃ rows, p'.log.toList = p.log.toList ++ rows ∧
      rows.map Trial.stamp =
        if S.isLogged s'.trials then [((level, temperature), s'.trials)] else [] := by
  obtain ⟨trials, -⟩ := attempt_log h
  obtain ⟨status, -, recorded⟩ := S.attempt_ok_iff.mp h
  refine ⟨trials, ?_⟩
  unfold Recorded at recorded
  split at recorded
  next logged =>
    obtain ⟨currentCost, bestCost, -, -, pushed⟩ := recorded
    refine ⟨[_], by rw [pushed, Array.toList_push], ?_⟩
    rw [if_pos logged]
    rfl
  next unlogged => exact ⟨[], by rw [recorded, List.append_nil], by rw [if_neg unlogged]; rfl⟩

/-- **A course logs those of its trials that are to be logged.** -/
theorem course_rows {due : List (Nat × Float)} : ∀ {s : Standing σ κ} {p : Progress ω},
    S.course due s p = .ok s' p' →
      s'.trials = s.trials + due.length ∧ ∃ rows, p'.log.toList = p.log.toList ++ rows ∧
        rows.map Trial.stamp = (due.zipIdx (s.trials + 1)).filter fun trial =>
          S.isLogged trial.2 := by
  induction due with
  | nil =>
      intro s p h
      cases h
      exact ⟨rfl, [], (List.append_nil _).symm, rfl⟩
  | cons trial due ih =>
      intro s p h
      obtain ⟨s₁, p₁, h₁, h⟩ := Effect.bind_ok_iff.mp h
      obtain ⟨trials₁, rows₁, log₁, stamps₁⟩ := attempt_rows h₁
      obtain ⟨trials, rows, log, stamps⟩ := ih h
      refine ⟨by rw [trials, trials₁, List.length_cons]; omega, rows₁ ++ rows, ?_, ?_⟩
      · rw [log, log₁, List.append_assoc]
      · rw [List.map_append, stamps₁, stamps, List.zipIdx_cons, List.filter_cons, trials₁]
        split <;> rfl

/-- The numbers of the entries of a course increase. -/
theorem increasing_of_stamps {rows : List Trial} {due : List (Nat × Float)} {first : Nat}
    {logged : Nat → Bool}
    (h : rows.map Trial.stamp = (due.zipIdx first).filter fun trial => logged trial.2) :
    rows.Pairwise (·.number < ·.number) := by
  have numbers : rows.map Trial.number = (rows.map Trial.stamp).map Prod.snd := by
    rw [List.map_map]
    rfl
  have among : (rows.map Trial.number).Sublist (List.range' first due.length) := by
    rw [numbers, h, ← List.zipIdx_map_snd first due]
    exact List.filter_sublist.map _
  have increasing : (List.range' first due.length).Pairwise (· < ·) := List.pairwise_lt_range'
  exact List.pairwise_map.mp (increasing.sublist among)

/-! ### Runs that are accounted for -/

/-- All trials of a run over `L` levels, and what was called and logged in them. -/
structure Accounted (S : Search ω σ κ) (initial : σ) (p p' : Progress ω) (L : Nat) : Prop where
  /-- The levels are as many as are counted. -/
  length : Schedule.lengthOfValues (.float S.options.initialTemperature)
    (.float S.options.coolingFactor)
    (.float S.options.minimumTemperature) = .ok L
  above : ∀ k < L, S.options.temperatureAt k > S.options.minimumTemperature
  ended : ¬ S.options.temperatureAt L > S.options.minimumTemperature
  /-- The trial behind the first `t` ones has the level `t / n`, and the temperature of this
  level. -/
  loop : let n := S.options.swapsPerTemperature.toNat
    S.run initial = inWorld (S.start initial) >>= fun s => (List.range (L * n)).foldlM (fun s t =>
      S.attempt (t / n) (S.options.temperatureAt (t / n)) s) s
  candidates :
    (Journal.generated (S.journal initial p)).length = L * S.options.swapsPerTemperature.toNat
  costs : (Journal.costs (S.journal initial p)).length = L * S.options.swapsPerTemperature.toNat + 1
  logged : let n := S.options.swapsPerTemperature.toNat
    ∃ rows, p'.log.toList = p.log.toList ++ rows ∧ rows.Pairwise (·.number < ·.number) ∧
      ∀ row ∈ rows, 1 ≤ row.number ∧ row.number ≤ L * n ∧ row.level = (row.number - 1) / n ∧
        row.temperature = S.options.temperatureAt ((row.number - 1) / n)

/-- A run asks for one candidate in every trial, and for one cost more. -/
theorem run_counts {initial : σ} (h : S.run initial p = .ok s p') :
    (Journal.generated (S.journal initial p)).length = s.trials ∧
      (Journal.costs (S.journal initial p)).length = s.trials + 1 := by
  refine run_noted (I := fun s calls => (Journal.generated calls).length = s.trials ∧
    (Journal.costs calls).length = s.trials + 1) (fun _ _ _ => ⟨rfl, rfl⟩) ?_ h
  rintro temperature status s s' calls more ⟨generated, costs⟩ noted
  obtain ⟨k, cost, -⟩ := noted.cost
  rw [Journal.generated_append, Journal.costs_append, List.length_append, List.length_append,
    noted.generated_length, cost, generated, costs, noted.trials]
  exact ⟨rfl, rfl⟩

/-- **Trials, levels and temperatures of a run are accounted for.** -/
theorem run_accounted {initial : σ} (h : S.run initial p = .ok s p') :
    ∃ L, Accounted S initial p p' L := by
  obtain ⟨ts, s₀, q₀, levels, started, log, course⟩ := run_parts h
  obtain ⟨current, k, best, rfl, -⟩ := S.start_noted started
  obtain ⟨temperatures, above, ended⟩ :=
    Options.levels_eq levels (show S.options.temperatureAt 0 = _ from rfl)
  rw [Nat.zero_add] at ended
  have agenda := S.agenda_eq S.options.temperatureAt ts.length
  rw [← temperatures] at agenda
  obtain ⟨trials, rows, rest, stamps⟩ := S.watched.course_rows course
  rw [agenda, List.length_map, List.length_range, Nat.zero_add] at trials
  obtain ⟨generated, costs⟩ := run_counts h
  refine ⟨ts.length, Schedule.lengthOfValues_floats levels, fun k hk => ?_, ended,
    ?_, by rw [generated, trials],
    by rw [costs, trials], rows, by
      rw [← log]; exact rest, increasing_of_stamps stamps, fun row hrow => ?_⟩
  · refine above _ ?_
    rw [temperatures]
    exact List.mem_map.mpr ⟨k, List.mem_range'_1.mpr ⟨Nat.zero_le k, by rwa [Nat.zero_add]⟩, rfl⟩
  · rw [temperatures] at levels
    exact S.run_eq_loop levels initial
  · have stamp : row.stamp ∈ (S.agenda ts).zipIdx 1 := by
      refine List.mem_of_mem_filter (p := fun trial => S.watched.isLogged trial.2) ?_
      rw [← Nat.zero_add 1, ← stamps]
      exact List.mem_map_of_mem hrow
    obtain ⟨positive, place⟩ := List.mk_mem_zipIdx_iff_le_and_getElem?_sub.mp stamp
    rw [agenda, List.getElem?_map, Option.map_eq_some_iff] at place
    obtain ⟨t, ht, due⟩ := place
    obtain ⟨below, rfl⟩ := List.getElem?_eq_some_iff.mp ht
    rw [List.length_range] at below
    rw [List.getElem_range] at due
    exact ⟨positive, by omega, (congrArg Prod.fst due).symm, (congrArg Prod.snd due).symm⟩

/-- What `coldWalk` does. -/
def coldScript : Script where
  moving := .sequence
  moves := #[]
  costs := #[5, 7, 3, 3, 2, 4, 1].map Value.int
  uniforms := #[0.5]
  failing := none

/-- Temperatures below zero, where nothing is left to chance.  The second and the fourth of the
candidates are cheaper than all before them, and the third costs as much as the second. -/
def coldWalk : Search Journal Nat Value :=
  coldScript.search
    { initialTemperature := -1, coolingFactor := 2, minimumTemperature := -3,
      swapsPerTemperature := 2,
      logPeriod := 1, extras := [] }
    true

theorem coldWalk_answers : ∃ s p', coldWalk.run 0 ⟨{ cells := #[0] }, #[]⟩ = .ok s p' :=
  Effect.ok_of_outcome (by decide +kernel)

theorem coldWalk_accounted :
    ∃ s p', coldWalk.run 0 ⟨{ cells := #[0] }, #[]⟩ = .ok s p' ∧
      ∃ L, Accounted coldWalk 0 ⟨{ cells := #[0] }, #[]⟩ p' L := by
  obtain ⟨s, p', run⟩ := coldWalk_answers
  exact ⟨s, p', run, run_accounted run⟩

end Search

end Annealing
