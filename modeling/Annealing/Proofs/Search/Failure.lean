import Annealing.Proofs.Search.Attempt

/-!
# Search — trials that fail

What a search keeps of its world, it keeps also where it fails.  So there are statements here about
trials that answer and about trials that do not.

* `Search.attempt_failsUnlogged`: a trial that fails has logged nothing, since the entry in the log
  is the last thing a trial makes.
* `Search.Preserving`: what every function of the strategy keeps of the world.  A trial and a whole
  run keep it (`Preserving.attempt`, `Preserving.run`).
-/

namespace Annealing.Search

variable {ω σ κ : Type} {S : Search ω σ κ}

open Effect

theorem inWorld_error_iff {α : Type} {act : Effect ω α} {p p' : Progress ω} {f : Fault} :
    inWorld act p = .error f p' ↔ act p.world = .error f p'.world ∧ p'.log = p.log := by
  simp only [inWorld, inField]
  cases act p.world with
  | ok a w => simp
  | error e w =>
      constructor
      · intro h
        cases h
        exact ⟨rfl, rfl⟩
      · rintro ⟨h, hlog⟩
        obtain ⟨world, log⟩ := p'
        cases h
        cases hlog
        rfl

/-! ### The log -/

/-- An effect that adds nothing to the log unless it answers. -/
def FailsUnlogged {α : Type} (act : Effect (Progress ω) α) : Prop :=
  ∀ p f v, act p = .error f v → v.log = p.log

section

variable {α β : Type}

/-- An effect that leaves the log alone. -/
def Unlogged (act : Effect (Progress ω) α) : Prop :=
  ∀ log, Preserves (fun p => p.log = log) act fun _ => True

theorem inWorld_unlogged (act : Effect ω α) : Unlogged (inWorld act) := by
  intro log p hp
  cases h : inWorld act p with
  | ok a p' => exact .inl ⟨a, p', rfl, (inWorld_ok_iff.mp h).2.trans hp, trivial⟩
  | error f p' => exact .inr ⟨f, p', rfl, (inWorld_error_iff.mp h).2.trans hp⟩

theorem ofExcept_unlogged (r : Except Fault α) :
    Unlogged (Effect.ofExcept r : Effect (Progress ω) α) :=
  fun _ => .ofExcept r

theorem FailsUnlogged.bind {act : Effect (Progress ω) α} {next : α → Effect (Progress ω) β}
    (first : Unlogged act) (rest : ∀ a, FailsUnlogged (next a)) : FailsUnlogged (act >>= next) := by
  intro p f v h
  rcases first p.log p rfl with ⟨a, p₁, h₁, hp₁, -⟩ | ⟨e, p₁, h₁, hp₁⟩
  · rw [bind_of_ok h₁] at h
    exact (rest a p₁ f v h).trans hp₁
  · rw [bind_error_iff.mpr (.inl h₁)] at h
    cases h
    exact hp₁

theorem record_failsUnlogged (level : Nat) (temperature : Float)
    (s : Standing σ κ) (status : Status) :
    FailsUnlogged (S.record level temperature s status) := by
  refine .bind (ofExcept_unlogged _) fun currentCost => .bind (ofExcept_unlogged _) fun bestCost =>
    ?_
  intro p f v h
  cases h

/-- The last step of a trial fails in the entry of the log if it does. -/
theorem logging_failsUnlogged (level : Nat) (temperature : Float)
    (s : Standing σ κ) (status : Status) :
    FailsUnlogged (if S.isLogged s.trials then do
        S.record level temperature s status
        Pure.pure s
      else Pure.pure s : Effect (Progress ω) (Standing σ κ)) := by
  intro p f v h
  split at h
  · rcases bind_error_iff.mp h with h | ⟨u, p₁, -, h⟩
    · exact record_failsUnlogged _ _ _ _ p f v h
    · cases h
  · cases h

end

/-- **A trial that fails has logged nothing.** -/
theorem attempt_failsUnlogged (S : Search ω σ κ) (level : Nat)
    (temperature : Float) (s : Standing σ κ) :
    FailsUnlogged (S.attempt level temperature s) := by
  refine .bind (inWorld_unlogged _) fun candidate => .bind (inWorld_unlogged _) fun k => ?_
  refine .bind (inWorld_unlogged _) fun move => .bind (ofExcept_unlogged _) fun better => ?_
  cases better with
  | true => exact .bind (inWorld_unlogged _) fun best => logging_failsUnlogged _ _ _ _
  | false => exact logging_failsUnlogged _ _ _ _

/-! ### What is kept of the world -/

theorem inWorld_preserves {α : Type} {I : ω → Prop} {act : Effect ω α}
    {Q : α → Prop} (h : Preserves I act Q) :
    Preserves (fun p : Progress ω => I p.world) (inWorld act) Q := by
  intro p hp
  rcases h p.world hp with ⟨a, w, h, hw, ha⟩ | ⟨f, w, h, hw⟩
  · exact .inl ⟨a, ⟨w, p.log⟩, inWorld_ok_iff.mpr ⟨h, rfl⟩, hw, ha⟩
  · exact .inr ⟨f, ⟨w, p.log⟩, inWorld_error_iff.mpr ⟨h, rfl⟩, hw⟩

/-- The functions of the strategy keep `I` of the world if they are given states with `Q`, and make
such states. -/
structure Preserving (S : Search ω σ κ) (I : ω → Prop) (Q : σ → Prop) : Prop where
  /-- Any state can be copied, and its copy has `Q`. -/
  copy : ∀ x, Preserves I (S.copy x) Q
  neighbor : ∀ x, Q x → Preserves I (S.neighbor x) Q
  cost : ∀ x, Preserves I (S.cost x) fun _ => True
  draw : Preserves I S.draw fun _ => True

namespace Preserving

variable {I : ω → Prop} {Q : σ → Prop} (h : S.Preserving I Q)

include h

theorem decideMove (temperature : Float) (current new : κ) :
    Preserves I (S.decideMove temperature current new) fun _ => True := by
  refine .bind (.ofExcept _) fun verdict _ => .bind (Q := fun _ => True) ?_ fun moves _ => ?_
  · cases verdict with
    | accepted | rejected => exact .pure trivial
    | chance probability => exact .bind h.draw fun _ _ => .pure trivial
  · cases moves with
    | true => exact .bind (.ofExcept _) fun _ _ => .pure trivial
    | false => exact .pure trivial

omit h in
theorem logging (level : Nat) (temperature : Float) {s : Standing σ κ}
    (current : Q s.current) (status : Status) :
    Preserves (fun p : Progress ω => I p.world)
      (if S.isLogged s.trials then do
        S.record level temperature s status
        Pure.pure s
      else Pure.pure s) fun s' => Q s'.current := by
  have recorded : Preserves (fun p : Progress ω => I p.world)
      (S.record level temperature s status) fun _ => True :=
    .bind (.ofExcept _) fun _ _ => .bind (.ofExcept _) fun _ _ _ hp => .inl ⟨_, _, rfl, hp, trivial⟩
  exact .ite (.bind recorded fun _ _ => .pure current) (.pure current)

theorem attempt (level : Nat) (temperature : Float) {s : Standing σ κ} (current : Q s.current) :
    Preserves (fun p : Progress ω => I p.world) (S.attempt level temperature s) fun s' =>
      Q s'.current := by
  refine .bind (inWorld_preserves (h.neighbor _ current)) fun candidate hc => ?_
  refine .bind (inWorld_preserves (h.cost candidate)) fun k _ => ?_
  refine .bind (inWorld_preserves (h.decideMove _ _ _)) fun move _ =>
    .bind (.ofExcept _) fun better _ => ?_
  have after := Standing.after_current (P := Q) current hc move.1 k
  refine .ite (.bind (inWorld_preserves (h.copy candidate)) fun best _ => ?_) ?_
  · exact logging level temperature
      (s := { s.after move.1 candidate k with best, bestCost := k }) after .best
  · exact logging level temperature after move.2

theorem attempts (level : Nat) (temperature : Float) :
    ∀ (n : Nat) {s : Standing σ κ}, Q s.current →
      Preserves (fun p : Progress ω => I p.world) (S.attempts level temperature n s) fun s' =>
        Q s'.current
  | 0, _, current => .pure current
  | n + 1, _, current => .bind (h.attempt level temperature current) fun _ current' =>
      attempts level temperature n current'

theorem levels (schedule : Schedule Float) :
    ∀ (fuel level : Nat) (temperature : Float) {s : Standing σ κ}, Q s.current →
      Preserves (fun p : Progress ω => I p.world)
        (S.levels schedule fuel level temperature s) fun s' => Q s'.current
  | 0, _, _, _, _ => .throw _
  | fuel + 1, level, temperature, s, current => by
      refine .bind (.ofExcept _) fun above _ => ?_
      cases above with
      | true =>
          refine .bind (h.attempts level temperature _ current) fun s' current' => ?_
          exact .bind (.ofExcept _) fun t _ => levels schedule fuel (level + 1) t current'
      | false => exact .pure current

/-- **What every function of the strategy keeps of the world, a run keeps, whether it answers or
fails.** -/
theorem run (initial : σ) :
    Preserves (fun p : Progress ω => I p.world) (S.run initial) fun s => Q s.current := by
  have start : Preserves I (S.start initial) fun s => Q s.current :=
    .bind (h.copy initial) fun _ current => .bind (h.cost initial) fun _ _ =>
      .bind (h.copy initial) fun _ _ =>
      .pure current
  exact .bind (inWorld_preserves start) fun s current => h.levels _ _ _ _ current

end Preserving

end Annealing.Search
