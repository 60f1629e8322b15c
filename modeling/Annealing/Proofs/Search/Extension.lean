import Annealing.Proofs.Search.Agenda
import Annealing.Proofs.Search.Shelter

/-!
# Search — going on to a lower temperature

With a lower minimum temperature, a schedule has the same levels and perhaps some more behind them.
A search with the lower minimum therefore does all that the search with the higher one does, and
goes on from there.

* `Schedule.levels_prefix`: the levels above the higher minimum are the first of those above the
  lower one.
* `Search.run_downTo`: the run with the lower minimum is the run with the higher one with further
  trials behind it.
* `Search.run_extends`: what is logged, what is called and what is found by the two runs.
-/

namespace Annealing

/-- **The levels above the higher minimum are the first of those above the lower one.** -/
theorem Schedule.levels_prefix {initial factor low high t : Float} {ts us : List Float}
    (lower : low ≤ high) (h : (geometric initial factor high).Levels t ts)
    (h' : (geometric initial factor low).Levels t us) :
    ts <+: us := by
  induction h generalizing us with
  | stop _ => exact List.nil_prefix
  | more above cooled _ ih =>
      have warm := lt_of_le_of_below lower (of_decide_eq_true (Except.ok.inj above))
      cases h' with
      | stop ended => exact absurd warm (of_decide_eq_false (Except.ok.inj ended))
      | more _ cooled' rest =>
          -- cooling does not know of the minimum
          obtain rfl := Except.ok.inj (cooled.symm.trans cooled')
          exact (List.prefix_cons_inj _).mpr (ih rest)

namespace Search

variable {ω σ κ : Type} (S : Search ω σ κ)

/-- The same search, down to another minimum temperature. -/
def downTo (minimum : Float) : Search ω σ κ :=
  { S with options := { S.options with minimumTemperature := minimum } }

/-- How far down a search goes does not show in its trials. -/
theorem course_downTo (minimum : Float) (due : List (Nat × Float)) :
    (S.downTo minimum).course due = S.course due := by
  induction due with
  | nil => rfl
  | cons trial due ih =>
      funext s
      rw [course, course, ih]
      rfl

theorem agendaFrom_append (count : Nat) (ts us : List Float) :
    ∀ level, agendaFrom count level (ts ++ us) =
      agendaFrom count level ts ++ agendaFrom count (level + ts.length) us := by
  induction ts with
  | nil => exact fun _ => rfl
  | cons t ts ih =>
      intro level
      rw [List.cons_append, agendaFrom, agendaFrom, ih, List.append_assoc, List.length_cons,
        Nat.add_assoc, Nat.add_comm 1]

/-- **The run with the lower minimum is the run with the higher one with further trials behind
it.** -/
theorem run_downTo {low high : Float} (lower : low ≤ high)
    (ends : (S.downTo high).options.schedule.Ends) (ends' : (S.downTo low).options.schedule.Ends)
    (initial : σ) :
    ∃ due, (S.downTo low).run initial = (S.downTo high).run initial >>= S.course due := by
  obtain ⟨ts, levels⟩ := ends
  obtain ⟨us, levels'⟩ := ends'
  obtain ⟨more, rfl⟩ := Schedule.levels_prefix lower levels levels'
  refine ⟨agendaFrom S.options.swapsPerTemperature.toNat (0 + ts.length) more, ?_⟩
  rw [(S.downTo low).run_eq_course levels', (S.downTo high).run_eq_course levels, bind_assoc]
  refine bind_congr fun s => ?_
  rw [course_downTo, course_downTo, ← course_append]
  exact congrArg (S.course · s) (agendaFrom_append _ _ _ _)

/-! ### Both runs -/

/-- From an initial state, a search goes to `s` and `p₁` down to the higher minimum and to `s'` and
`p₂` down to the lower one.  This is what the one run has to do with the other. -/
structure Extends (S : Search ω σ κ) (initial : σ) (p : Progress ω) (high low : Float)
    (s : Standing σ κ) (p₁ : Progress ω) (s' : Standing σ κ) (p₂ : Progress ω) : Prop where
  /-- The longer run goes on where the shorter one ends. -/
  goes_on : ∃ due, S.course due s p₁ = .ok s' p₂
  log : p₁.log.toList <+: p₂.log.toList
  /-- All calls in their order, thus also the neighbors, the copies and the draws for themselves. -/
  calls : (S.downTo high).journal initial p <+: (S.downTo low).journal initial p
  /-- The longer run does not find a worse cost, -/
  cost : S.scale.Orders (Journal.costs ((S.downTo low).journal initial p)) →
    ¬ S.scale.isBelow s.bestCost s'.bestCost
  /-- and the states that are returned have these costs. -/
  state :
    ∀ {γ : Type} {holds : ω → σ → γ → Prop} {apart : ω → σ → σ → Prop} {price : γ → κ} {c₀ : γ},
    S.Shelters holds apart price → holds p.world initial c₀ →
      Costs holds price p₁.world s.best s.bestCost ∧ Costs holds price p₂.world s'.best s'.bestCost

variable {S}

theorem Shelters.downTo {γ : Type} {holds : ω → σ → γ → Prop} {apart : ω → σ → σ → Prop}
    {price : γ → κ} (h : S.Shelters holds apart price) (minimum : Float) :
    (S.downTo minimum).Shelters holds apart price :=
  ⟨h.copy_keeps, h.copy_holds, h.copy_apart, h.neighbor_spares, h.neighbor_holds,
    h.cost_undisturbed, h.cost_price, h.draw_undisturbed⟩

/-- **Lowering the minimum temperature only extends a run.** -/
theorem run_extends {low high : Float} {initial : σ} {s s' : Standing σ κ} {p p₁ p₂ : Progress ω}
    (lower : low ≤ high) (h : (S.downTo high).run initial p = .ok s p₁)
    (h' : (S.downTo low).run initial p = .ok s' p₂) :
    Extends S initial p high low s p₁ s' p₂ := by
  have ends := ends_of_run h
  have ends' := ends_of_run h'
  have goes_on : ∃ due, S.course due s p₁ = .ok s' p₂ := by
    obtain ⟨due, run⟩ := S.run_downTo lower ends ends' initial
    rw [run, Effect.bind_of_ok h] at h'
    exact ⟨due, h'⟩
  have calls : (S.downTo high).journal initial p <+: (S.downTo low).journal initial p := by
    obtain ⟨due, run⟩ := S.watched.run_downTo lower ends ends' initial
    have watched := (Effect.bind_of_ok (watched_of_run h)).symm.trans
      ((congrFun run (unopened p)).symm.trans (watched_of_run h'))
    have noted := course_journal watched
    exact noted
  refine ⟨goes_on, ?_, calls, fun ordered => ?_, fun shelters held => ?_⟩
  · obtain ⟨due, course⟩ := goes_on
    obtain ⟨later, log, -⟩ := S.course_log course
    exact ⟨later, log.symm⟩
  · obtain ⟨place, changes, leads⟩ := run_leads h
    obtain ⟨place', changes', leads'⟩ := run_leads h'
    exact leads'.not_below ordered _ ((Journal.costs_prefix calls).subset leads.mem)
  · exact ⟨(run_sheltered (shelters.downTo high) held h).best,
      (run_sheltered (shelters.downTo low) held h').best⟩

/-- Down to `-5` instead of `-3` there is one level more, in which a cheaper state is found. -/
theorem coldWalk_extends :
    ∃ s p₁ s' p₂, (coldWalk.downTo (-3)).run 0 ⟨{ cells := #[0] }, #[]⟩ = .ok s p₁ ∧
      (coldWalk.downTo (-5)).run 0 ⟨{ cells := #[0] }, #[]⟩ = .ok s' p₂ ∧
      Extends coldWalk 0 ⟨{ cells := #[0] }, #[]⟩ (-3) (-5) s p₁ s' p₂ ∧
      ¬ CostScale.values.isBelow s.bestCost s'.bestCost ∧
      Costs Script.holds coldScript.price p₁.world s.best s.bestCost ∧
      Costs Script.holds coldScript.price p₂.world s'.best s'.bestCost := by
  obtain ⟨s, p₁, run⟩ : ∃ s p₁, (coldWalk.downTo (-3)).run 0 ⟨{ cells := #[0] }, #[]⟩ = .ok s p₁ :=
    Effect.ok_of_outcome (by decide +kernel)
  obtain ⟨s', p₂, run'⟩ :
      ∃ s' p₂, (coldWalk.downTo (-5)).run 0 ⟨{ cells := #[0] }, #[]⟩ = .ok s' p₂ :=
    Effect.ok_of_outcome (by decide +kernel)
  have further := run_extends (by decide +kernel) run run'
  have numbers : ∀ k ∈ Journal.costs ((coldWalk.downTo (-5)).journal 0 ⟨{ cells := #[0] }, #[]⟩),
      k.isOrdered := by
    decide +kernel
  have sheltered :
      coldWalk.Shelters Script.holds (fun _ cell other => cell ≠ other) coldScript.price :=
    Script.shelters _ _ _
  have held : Script.holds { cells := #[0] } 0 0 := rfl
  have states := further.state sheltered held
  exact ⟨s, p₁, s', p₂, run, run', further,
    further.cost (CostScale.values_orders_of_numbers numbers), states⟩

end Search

end Annealing
