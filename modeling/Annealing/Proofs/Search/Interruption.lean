import Annealing.Proofs.Search.Course
import Annealing.Proofs.Search.Failure
import Annealing.Proofs.Search.Tally

/-!
# Search — a failing function cuts a run off where it fails

Take a script none of whose calls fails, and the same script in which the `k`-th call of one
function does (`Script.failAt`).  Both do the same up to that call.

**A failing call cuts the run off** (`Script.failing_call_cuts_off`).  If the run without failure
answers and makes fewer than `k` of the calls, the other run is the same.  If it makes at least `k`,
the other run ends with that failure.  Its log holds exactly the entries of the trials before the
one in which the call was made, which is known from the costs (`Script.firstLost`), and what
neighbors were made of in it is a first part of what they were made of in the run without failure.
In any case the initial state holds what it held.

That two effects do the same up to a call (`Interrupts`) passes through sequences, so it is only
proved for the three functions.  The trial in which the call is made is found by
`Search.course_crossing`.
-/

namespace Annealing

variable {ω : Type} {journal : ω → Journal} {role : Role} {k : Nat}

/-! ### Effects up to a call -/

/-- `act'` does what `act` does, up to the `k`-th call of a function, which fails. -/
structure Interrupts {α : Type} (journal : ω → Journal) (role : Role) (k : Nat)
    (act' act : Effect ω α) : Prop where
  grows : ∀ {w a w'}, act w = .ok a w' → (journal w).Extends (journal w')
  same : ∀ {w a w'}, act w = .ok a w' → (journal w').calls role < k → act' w = .ok a w'
  fails : ∀ {w a w'}, act w = .ok a w' → (journal w).calls role < k → k ≤ (journal w').calls role →
    ∃ v, act' w = .error (.refused role k) v ∧
      (journal v).parents.toList <+: (journal w').parents.toList

namespace Interrupts

variable {α β : Type}

/-- An effect that makes no call is not interrupted. -/
theorem of_uncalled {act : Effect ω α} (uncalled : ∀ {w a w'}, act w = .ok a w' →
    (∀ r, (journal w').calls r = (journal w).calls r) ∧
    (journal w').parents = (journal w).parents) :
    Interrupts journal role k act act where
  grows h := ⟨fun r => ((uncalled h).1 r).ge, by rw [(uncalled h).2]⟩
  same h _ := h
  fails h below reached := by
    rw [(uncalled h).1] at reached
    omega

theorem pure (a : α) : Interrupts journal role k (pure a) (pure a) := by
  refine of_uncalled fun h => ?_
  cases h
  exact ⟨fun _ => rfl, rfl⟩

theorem ofExcept (r : Except Fault α) :
    Interrupts journal role k (Effect.ofExcept r) (Effect.ofExcept r) := by
  refine of_uncalled fun h => ?_
  obtain ⟨-, rfl⟩ := Effect.ofExcept_ok_iff.mp h
  exact ⟨fun _ => rfl, rfl⟩

theorem bind {act' act : Effect ω α} {next' next : α → Effect ω β}
    (first : Interrupts journal role k act' act)
    (rest : ∀ a, Interrupts journal role k (next' a) (next a)) :
    Interrupts journal role k (act' >>= next') (act >>= next) where
  grows h := by
    obtain ⟨a, w₁, h₁, h₂⟩ := Effect.bind_ok_iff.mp h
    exact (first.grows h₁).trans ((rest a).grows h₂)
  same h below := by
    obtain ⟨a, w₁, h₁, h₂⟩ := Effect.bind_ok_iff.mp h
    have below₁ := Nat.lt_of_le_of_lt (((rest a).grows h₂).calls role) below
    exact Effect.bind_ok_iff.mpr ⟨a, w₁, first.same h₁ below₁, (rest a).same h₂ below⟩
  fails h below reached := by
    obtain ⟨a, w₁, h₁, h₂⟩ := Effect.bind_ok_iff.mp h
    by_cases early : k ≤ (journal w₁).calls role
    · obtain ⟨v, hv, parents⟩ := first.fails h₁ below early
      exact ⟨v, Effect.bind_error_iff.mpr (.inl hv), parents.trans ((rest a).grows h₂).parents⟩
    · have below₁ := Nat.lt_of_not_le early
      obtain ⟨v, hv, parents⟩ := (rest a).fails h₂ below₁ reached
      exact ⟨v, Effect.bind_error_iff.mpr (.inr ⟨a, w₁, first.same h₁ below₁, hv⟩), parents⟩

theorem ite {p : Prop} [Decidable p] {yes' yes no' no : Effect ω α}
    (hy : Interrupts journal role k yes' yes) (hn : Interrupts journal role k no' no) :
    Interrupts journal role k (if p then yes' else no') (if p then yes else no) := by
  by_cases h : p
  · simpa only [if_pos h] using hy
  · simpa only [if_neg h] using hn

theorem inWorld {act' act : Effect Journal α} (h : Interrupts id role k act' act) :
    Interrupts Progress.world role k (Search.inWorld act') (Search.inWorld act) where
  grows ok := h.grows (Search.inWorld_ok_iff.mp ok).1
  same ok below := by
    obtain ⟨ok, hlog⟩ := Search.inWorld_ok_iff.mp ok
    exact Search.inWorld_ok_iff.mpr ⟨h.same ok below, hlog⟩
  fails {p _ _} ok below reached := by
    obtain ⟨v, hv, parents⟩ := h.fails (Search.inWorld_ok_iff.mp ok).1 below reached
    exact ⟨⟨v, p.log⟩, Search.inWorld_error_iff.mpr ⟨hv, rfl⟩, parents⟩

/-- A function of a role whose calls are counted, and which fails at one of them. -/
theorem of_called {own : Role} {act' act : Effect Journal α}
    (called : ∀ {j a j'}, act j = .ok a j' → Journal.Called own j j')
    (cut : ∀ j, act' j = if role = own ∧ k = j.calls own + 1 then
      .error (.refused own (j.calls own + 1)) (j.count own) else act j) :
    Interrupts id role k act' act where
  grows h := (called h).toExtends
  same h below := by
    rw [cut, if_neg, h]
    rintro ⟨rfl, rfl⟩
    have counted := (called h).calls role
    rw [if_pos rfl] at counted
    exact absurd below (Nat.not_lt.mpr counted.ge)
  fails {j _ j'} h below reached := by
    have counted := (called h).calls role
    simp only [id] at below reached
    by_cases hr : role = own
    · subst hr
      rw [if_pos rfl] at counted
      obtain rfl : k = j.calls role + 1 := by omega
      refine ⟨j.count role, by rw [cut, if_pos ⟨rfl, rfl⟩], ?_⟩
      simpa only [id, Journal.count_parents] using (called h).parents
    · rw [if_neg hr] at counted
      omega

end Interrupts

namespace Script

variable {s : Script} {options : Options} {logging : Bool}

/-! ### Scripts up to a call -/

section

variable (whole : s.failing = none)

include whole

theorem copy_interrupts (cell : Nat) :
    Interrupts id role k ((s.failAt role k).copy cell) (s.copy cell) :=
  .of_called copy_called fun j => by
    simp only [copy_eq, failing_failAt_iff, whole, reduceCtorEq, if_false]

theorem neighbor_interrupts (cell : Nat) :
    Interrupts id role k ((s.failAt role k).neighbor cell) (s.neighbor cell) :=
  .of_called neighbor_called fun j => by
    simp only [neighbor_eq, failing_failAt_iff, whole, reduceCtorEq, if_false]
    rfl

theorem cost_interrupts (cell : Nat) :
    Interrupts id role k ((s.failAt role k).cost cell) (s.cost cell) :=
  .of_called cost_called fun j => by
    simp only [cost_eq, failing_failAt_iff, whole, reduceCtorEq, if_false]
    rfl

theorem start_interrupts (cell : Nat) :
    Interrupts id role k (((s.failAt role k).search options logging).start cell)
      ((s.search options logging).start cell) :=
  .bind (copy_interrupts whole cell) fun _ => .bind (cost_interrupts whole cell) fun _ =>
    .bind (copy_interrupts whole cell) fun _ => .pure _

omit whole in
/-- Deciding about a candidate makes no call. -/
theorem decideMove_interrupts (temperature : Float) (current new : Value) :
    Interrupts id role k ((s.search options logging).decideMove temperature current new)
      ((s.search options logging).decideMove temperature current new) := by
  refine .of_uncalled fun h => ?_
  rcases (s.search options logging).decideMove_ok h with rfl | ⟨u, hu⟩
  · exact ⟨fun _ => rfl, rfl⟩
  · obtain ⟨n, rfl⟩ := draw_ok hu
    exact ⟨fun r => by cases r <;> rfl, rfl⟩

omit whole in
theorem logging_interrupts (level : Nat) (temperature : Float)
    (st : Standing Nat Value) (status : Status) :
    Interrupts Progress.world role k
      (if (s.search options logging).isLogged st.trials then do
        (s.search options logging).record level temperature st status
        Pure.pure st
      else Pure.pure st)
      (if (s.search options logging).isLogged st.trials then do
        (s.search options logging).record level temperature st status
        Pure.pure st
      else Pure.pure st) := by
  refine .ite (.bind (.of_uncalled fun h => ?_) fun _ => .pure _) (.pure _)
  rw [((s.search options logging).record_ok_iff.mp h).1]
  exact ⟨fun _ => rfl, rfl⟩

/-- **A trial does the same up to the call that fails.** -/
theorem attempt_interrupts (level : Nat) (temperature : Float) (st : Standing Nat Value) :
    Interrupts Progress.world role k
      (((s.failAt role k).search options logging).attempt level temperature st)
      ((s.search options logging).attempt level temperature st) := by
  refine .bind (.inWorld (neighbor_interrupts whole _)) fun candidate => ?_
  refine .bind (.inWorld (cost_interrupts whole _)) fun cost => ?_
  refine .bind (.inWorld (decideMove_interrupts _ _ _)) fun move =>
    .bind (.ofExcept _) fun better => ?_
  refine .ite (.bind (.inWorld (copy_interrupts whole _)) fun best => ?_) ?_
  · exact logging_interrupts _ _ _ _
  · exact logging_interrupts _ _ _ _

theorem course_interrupts (due : List (Nat × Float)) :
    ∀ st : Standing Nat Value,
      Interrupts Progress.world role k (((s.failAt role k).search options logging).course due st)
        ((s.search options logging).course due st) := by
  induction due with
  | nil => exact fun st => .pure st
  | cons due rest ih => exact fun st => .bind (attempt_interrupts whole _ _ st) ih

theorem course_extends {due : List (Nat × Float)} {st st' : Standing Nat Value}
    {p p' : Progress Journal} (h : (s.search options logging).course due st p = .ok st' p') :
    p.world.Extends p'.world :=
  -- which call is to fail makes no difference to the search in which none does
  (course_interrupts whole due st : Interrupts Progress.world .copy 0 _ _).grows h

end

/-! ### Where a course is cut off -/

open Effect in
theorem course_shows {ω σ κ : Type} (S : Search ω σ κ) (due : List (Nat × Float)) :
    ∀ st, Shows Search.unwatched (S.watched.course due st) (S.course due st) := by
  induction due with
  | nil => exact fun st => .pure st
  | cons due rest ih => exact fun st => .bind (S.watched_mirrors.attempt _ _ st) ih

/-- What is left of the progress `whole` when the trials from the number `lost` on are lost. -/
structure CutOff (whole cut : Progress Journal) (lost : Nat) : Prop where
  rows : cut.log.toList = whole.log.toList.filter (·.number < lost)
  earlier : cut.log.toList <+: whole.log.toList
  parents : cut.world.parents.toList <+: whole.world.parents.toList

/-- The entries of the trials below a number are those before the first one that is not. -/
theorem rows_below {earlier later : List Trial} {lost : Nat}
    (below : ∀ entry ∈ earlier, entry.number < lost)
    (above : ∀ entry ∈ later, lost ≤ entry.number) :
    (earlier ++ later).filter (·.number < lost) = earlier := by
  have kept : earlier.filter (·.number < lost) = earlier :=
    List.filter_eq_self.mpr fun entry he => decide_eq_true (below entry he)
  have dropped : later.filter (·.number < lost) = [] :=
    List.filter_eq_nil_iff.mpr fun entry he => by simpa using above entry he
  rw [List.filter_append, kept, dropped, List.append_nil]

section

variable (whole : s.failing = none) {st st' : Standing Nat Value}
  {q q' : Progress (Watched Journal Nat Value)}

/-- Trials keep the tally and add to the costs. -/
theorem course_tally {due : List (Nat × Float)} (tally : Tally st q.world)
    (h : (s.search options logging).watched.course due st q = .ok st' q') :
    Tally st' q'.world ∧ Journal.costs q.world.calls <+: Journal.costs q'.world.calls := by
  refine (s.search options logging).watched.course_ok
    (I := fun st' q' => Tally st' q'.world ∧
      Journal.costs q.world.calls <+: Journal.costs q'.world.calls)
    ?_ ⟨tally, List.prefix_rfl⟩ h
  rintro level temperature st₁ st₂ q₁ q₂ ⟨tally₁, costs⟩ h
  obtain ⟨status, attempted, -⟩ := (s.search options logging).watched.attempt_ok_iff.mp h
  obtain ⟨k, more, -⟩ := (added attempted).answer
  exact ⟨tally₁.step (added attempted), costs.trans (by rw [more]; exact List.prefix_append _ _)⟩

include whole

/-- **A course is cut off in the trial that makes the call.** -/
theorem course_cut {due : List (Nat × Float)} (tally : Tally st q.world) (blank : q.log = #[])
    (h : (s.search options logging).watched.course due st q = .ok st' q')
    (below : q.world.world.calls role < k) (reached : k ≤ q'.world.world.calls role) :
    ∃ v lost, ((s.failAt role k).search options logging).course due st (Search.unwatched q) =
        .error (.refused role k) v ∧
      firstLost (Journal.costs q'.world.calls) role k = some lost ∧
      CutOff (Search.unwatched q') v lost := by
  obtain ⟨before, level, temperature, after, st₁, q₁, st₂, q₂, rfl, hb, below₁, hx, reached₂, ha⟩ :=
    (s.search options logging).watched.course_crossing
      (fun q => q.world.world.calls role) h below reached
  have tally₁ := (course_tally tally hb).1
  obtain ⟨status, attempted, -⟩ := (s.search options logging).watched.attempt_ok_iff.mp hx
  have tally₂ := tally₁.step (added attempted)
  have lost := tally₁.firstLost_eq (added attempted) below₁ reached₂
  obtain ⟨more, costs⟩ := (course_tally tally₂ ha).2
  -- the other search makes the trials before, and fails in this one
  have earlier := (course_interrupts whole before st).same
    ((course_shows (s.search options logging) before st).part_ok hb) below₁
  have ha' := (course_shows (s.search options logging) after st₂).part_ok ha
  obtain ⟨v, hv, parents⟩ := (attempt_interrupts whole level temperature st₁).fails
    (((s.search options logging).watched_mirrors.attempt level temperature st₁).part_ok hx)
    below₁ reached₂
  have unlogged :=
    ((s.failAt role k).search options logging).attempt_failsUnlogged level temperature st₁ _ _ _ hv
  -- the log is parted at this trial
  obtain ⟨rows, log₁, numbers₁⟩ := (s.search options logging).watched.course_log hb
  have rest : (s.search options logging).watched.course ((level, temperature) :: after) st₁ q₁ =
      .ok st' q' :=
    Effect.bind_ok_iff.mpr ⟨st₂, q₂, hx, ha⟩
  obtain ⟨later, log₂, numbers₂⟩ := (s.search options logging).watched.course_log rest
  have trials : st₂.trials = st₁.trials + 1 := (added attempted).trials
  have hrows : v.log.toList = rows := by
    rw [unlogged]
    exact log₁.trans (by rw [blank]; rfl)
  have hlog : (Search.unwatched q').log.toList = v.log.toList ++ later :=
    log₂.trans (by rw [unlogged]; rfl)
  refine ⟨v, st₂.trials, ?_, by rw [← costs]; exact firstLost_append lost more, ?_, ?_, ?_⟩
  · rw [Search.course_append]
    exact Effect.bind_error_iff.mpr (.inr ⟨st₁, _, earlier, Effect.bind_error_iff.mpr (.inl hv)⟩)
  · rw [hlog, rows_below ?_ fun entry he => by rw [trials]; exact (numbers₂ entry he).1]
    intro entry he
    rw [hrows] at he
    rw [trials]
    exact Nat.lt_succ_of_le (numbers₁ entry he).2
  · rw [hlog]
    exact List.prefix_append _ _
  · exact parents.trans (course_extends whole ha').parents

end

/-! ### Where a run is cut off -/

/-- What there is before the first call of a run. -/
def opening (initial : Int) : Progress Journal := { world := { cells := #[initial] }, log := #[] }

section

variable (whole : s.failing = none) {initial : Int} {st : Standing Nat Value} {p : Progress Journal}

include whole

theorem run_same (h : (s.search options logging).run 0 (opening initial) = .ok st p)
    (below : p.world.calls role < k) :
    ((s.failAt role k).search options logging).run 0 (opening initial) = .ok st p := by
  obtain ⟨ts, levels⟩ := Search.ends_of_run h
  have run := (s.search options logging).run_eq_course levels 0
  have run' := ((s.failAt role k).search options logging).run_eq_course levels 0
  rw [run] at h
  rw [run']
  exact (Interrupts.bind (.inWorld (start_interrupts whole 0))
    (course_interrupts whole _)).same h below

/-- **A run is cut off at the call that fails.** -/
theorem run_cut (h : (s.search options logging).run 0 (opening initial) = .ok st p)
    (positive : 0 < k) (reached : k ≤ p.world.calls role) :
    ∃ v lost, ((s.failAt role k).search options logging).run 0 (opening initial) =
      .error (.refused role k) v ∧
      firstLost (Journal.costs ((s.search options logging).journal 0 (opening initial))) role k =
        some lost ∧
      CutOff p v lost := by
  obtain ⟨ts, levels⟩ := Search.ends_of_run h
  have run := (s.search options logging).watched.run_eq_course levels 0
  have run' := ((s.failAt role k).search options logging).run_eq_course levels 0
  have watched := Search.watched_of_run h
  rw [run] at watched
  obtain ⟨st₀, q₀, started, course⟩ := Effect.bind_ok_iff.mp watched
  obtain ⟨started, blank⟩ := Search.inWorld_ok_iff.mp started
  have begun : Search.inWorld ((s.search options logging).start 0)
      (opening initial) = .ok st₀ (Search.unwatched q₀) :=
    Search.inWorld_ok_iff.mpr ⟨((s.search options logging).watched_mirrors.start 0).part_ok started,
      blank⟩
  rw [run']
  by_cases early : k ≤ q₀.world.world.calls role
  · obtain ⟨v, hv, parents⟩ := (start_interrupts whole 0).inWorld.fails begun
      (by cases role <;> exact positive) early
    have unlogged : v.log = #[] := (Search.inWorld_error_iff.mp hv).2
    have ha := (course_shows (s.search options logging) _ st₀).part_ok course
    refine ⟨v, 0, Effect.bind_error_iff.mpr (.inl hv),
      Tally.firstLost_start started positive early _, ?_, ?_, ?_⟩
    · rw [unlogged]
      exact (List.filter_eq_nil_iff.mpr fun entry _ => by simp).symm
    · rw [unlogged]
      exact List.nil_prefix
    · exact parents.trans (course_extends whole ha).parents
  · have below := Nat.lt_of_not_le early
    obtain ⟨v, lost, hv, hlost, cut⟩ := course_cut whole (.start started) blank course below reached
    refine ⟨v, lost, Effect.bind_error_iff.mpr (.inr ⟨st₀, _, ?_, hv⟩), hlost, cut⟩
    exact (start_interrupts whole 0).inWorld.same begun below

end

/-! ### Scripts that are followed -/

/-- The costs that occur where a script is followed, in their order. -/
def costsOf (s : Script) (given : Value) (logging : Bool) (initial : Int) : List Value :=
  match Options.ofValue given with
  | .ok options => Journal.costs ((s.search options logging).journal 0 (opening initial))
  | .error _ => []

section

variable {given : Value} {initial : Int} {st : Standing Nat Value}
  {p : Progress Journal} {f : Fault}

theorem run_of_ok (accepted : Options.ofValue given = .ok options)
    (h : (s.search options logging).run 0 (opening initial) = .ok st p) :
    s.run given logging initial = (.ok st.best, p) :=
  Effect.outcome_of_ok (Effect.bind_ok_iff.mpr ⟨options, opening initial,
    Effect.ofExcept_ok_iff.mpr ⟨accepted, rfl⟩,
    Effect.bind_ok_iff.mpr ⟨st, p, h, rfl⟩⟩)

theorem run_of_error (accepted : Options.ofValue given = .ok options)
    (h : (s.search options logging).run 0 (opening initial) = .error f p) :
    s.run given logging initial = (.error f, p) :=
  Effect.outcome_of_error (Effect.bind_error_iff.mpr (.inr ⟨options, opening initial,
    Effect.ofExcept_ok_iff.mpr ⟨accepted, rfl⟩, Effect.bind_error_iff.mpr (.inl h)⟩))

/-- Options that are refused leave nothing to follow. -/
theorem run_of_refused (refused : Options.ofValue given = .error f) :
    s.run given logging initial = (.error f, opening initial) :=
  Effect.outcome_of_error (Effect.bind_error_iff.mpr (.inl (by rw [refused]; rfl)))

theorem run_ok {best : Nat} (h : s.run given logging initial = (.ok best, p)) :
    ∃ options st, Options.ofValue given = .ok options ∧
      (s.search options logging).run 0 (opening initial) = .ok st p ∧ st.best = best := by
  cases accepted : Options.ofValue given with
  | error f =>
      rw [run_of_refused accepted] at h
      cases h
  | ok options =>
      cases ends : (s.search options logging).run 0 (opening initial) with
      | ok st q =>
          rw [run_of_ok accepted ends] at h
          cases h
          exact ⟨options, st, rfl, ends, rfl⟩
      | error f q =>
          rw [run_of_error accepted ends] at h
          cases h

end

/-- **However a run ends, the initial state holds what it held.** -/
theorem run_first (s : Script) (given : Value) (logging : Bool) (initial : Int) :
    FirstHolds initial (s.run given logging initial).2.world := by
  cases accepted : Options.ofValue given with
  | error f =>
      rw [run_of_refused accepted]
      rfl
  | ok options =>
      have preserving : (s.search options logging).Preserving (FirstHolds initial) (· ≠ 0) :=
        ⟨s.copy_preserves, fun _ other => s.neighbor_preserves other, s.cost_preserves,
          s.draw_preserves⟩
      rcases preserving.run 0 (opening initial) rfl with ⟨st, p, h, first, -⟩ | ⟨f, p, h, first⟩
      · rw [run_of_ok accepted h]
        exact first
      · rw [run_of_error accepted h]
        exact first

/-- **A failing call cuts a run off exactly where it fails.** -/
theorem failing_call_cuts_off (whole : s.failing = none) {given : Value} {initial : Int}
    {best : Nat} {p : Progress Journal} (h : s.run given logging initial = (.ok best, p))
    (role : Role) {k : Nat} (positive : 1 ≤ k) :
    let cut := (s.failAt role k).run given logging initial
    (p.world.calls role < k → cut = (.ok best, p)) ∧
      (k ≤ p.world.calls role → cut.1 = .error (.refused role k) ∧
        ∃ lost, firstLost (s.costsOf given logging initial) role k = some lost ∧
          CutOff p cut.2 lost) ∧
      cut.2.world.cells[0]? = some initial := by
  obtain ⟨options, st, accepted, run, rfl⟩ := run_ok h
  refine ⟨fun below => run_of_ok accepted (run_same whole run below),
    fun reached => ?_, run_first ..⟩
  obtain ⟨v, lost, hv, hlost, cut⟩ := run_cut whole run positive reached
  rw [run_of_error accepted hv]
  refine ⟨rfl, lost, ?_, cut⟩
  simpa only [costsOf, accepted] using hlost

/-- A script that moves in place over five costs, the third of them below all before. -/
def fiveCosts : Script :=
  { moving := .inPlace, moves := #[1], costs := #[.int 5, .int 7, .int 3, .int 3, .int 4],
    uniforms := #[0.5],
    failing := none }

/-- Two levels of two trials, at temperatures below zero. -/
def twoLevels : Value :=
  .dict [(.ofString "initial_temperature", .float (-1)), (.ofString "cooling_factor", .float 2),
    (.ofString "minimum_temperature", .float (-3)), (.ofString "swaps_per_temperature", .int 2)]

theorem third_copy_cuts_off :
    ∃ best p, fiveCosts.run twoLevels true 0 = (.ok best, p) ∧ 3 ≤ p.world.calls .copy ∧
      ((fiveCosts.failAt .copy 3).run twoLevels true 0).1 = .error (.refused .copy 3) ∧
      ∃ lost, firstLost (fiveCosts.costsOf twoLevels true 0) .copy 3 = some lost ∧
        CutOff p ((fiveCosts.failAt .copy 3).run twoLevels true 0).2 lost := by
  have answers : (fiveCosts.run twoLevels true 0).1.isOk = true := by decide +kernel
  have reached : 3 ≤ (fiveCosts.run twoLevels true 0).2.world.calls .copy := by decide +kernel
  cases h : fiveCosts.run twoLevels true 0 with
  | mk outcome p =>
      rw [h] at answers reached
      cases outcome with
      | ok best =>
          exact ⟨best, p, rfl, reached, (failing_call_cuts_off rfl h .copy (by decide)).2.1 reached⟩
      | error f => cases answers

/-- The third copy of `fiveCosts` is made in the second trial, so one entry of the log is left. -/
example : firstLost (fiveCosts.costsOf twoLevels true 0) .copy 3 = some 2 ∧
    ((fiveCosts.failAt .copy 3).run twoLevels true 0).2.log.size = 1 := by
  decide +kernel

end Script

end Annealing
