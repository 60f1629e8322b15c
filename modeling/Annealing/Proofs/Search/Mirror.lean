import Annealing.Proofs.Search.Attempt

/-!
# Search — the same search in a larger world

A search may be followed in a world that keeps more than its own, for instance what was asked of its
strategy.  Such a search *mirrors* the given one (`Search.Mirrors`) if its strategy does, in the
part of the larger world that `f` shows, what the given strategy does, and everything else is the
same.

Then all it does shows what the given search does: a trial (`Mirrors.attempt`), the start
(`Mirrors.start`) and a whole run (`Mirrors.run`).  Only the functions of the strategy have to be
looked at.
-/

namespace Annealing

variable {ω ω' σ κ : Type}

/-- The progress of a search, with the part of its world that `f` shows. -/
def Progress.shown (f : ω' → ω) (p : Progress ω') : Progress ω := ⟨f p.world, p.log⟩

namespace Search

/-- `S'` does what `S` does, in the part of a larger world that `f` shows. -/
structure Mirrors (f : ω' → ω) (S' : Search ω' σ κ) (S : Search ω σ κ) : Prop where
  copy : ∀ s, Effect.Shows f (S'.copy s) (S.copy s)
  neighbor : ∀ s, Effect.Shows f (S'.neighbor s) (S.neighbor s)
  cost : ∀ s, Effect.Shows f (S'.cost s) (S.cost s)
  draw : Effect.Shows f S'.draw S.draw
  scale : S'.scale = S.scale
  options : S'.options = S.options
  logging : S'.logging = S.logging

open Effect in
theorem inWorld_shows {f : ω' → ω} {α : Type} {act' : Effect ω' α}
    {act : Effect ω α} (h : Shows f act' act) :
    Shows (Progress.shown f) (inWorld act') (inWorld act) := by
  intro p
  have hp : seen f (act' p.world) = act (p.shown f).world := h p.world
  simp only [inWorld, inField]
  rw [← hp]
  cases act' p.world <;> rfl

namespace Mirrors

open Effect

variable {f : ω' → ω} {S' : Search ω' σ κ} {S : Search ω σ κ} (h : Mirrors f S' S)

theorem trans {ω'' : Type} {g : ω → ω''} {T : Search ω'' σ κ}
    (h : Mirrors f S' S) (h' : Mirrors g S T) :
    Mirrors (fun w => g (f w)) S' T where
  copy s := (h.copy s).trans (h'.copy s)
  neighbor s := (h.neighbor s).trans (h'.neighbor s)
  cost s := (h.cost s).trans (h'.cost s)
  draw := h.draw.trans h'.draw
  scale := h.scale.trans h'.scale
  options := h.options.trans h'.options
  logging := h.logging.trans h'.logging

include h

theorem isLogged (number : Nat) : S'.isLogged number = S.isLogged number := by
  unfold Search.isLogged Search.period
  rw [h.logging, h.options]

theorem decideMove (temperature : Float) (current new : κ) :
    Shows f (S'.decideMove temperature current new) (S.decideMove temperature current new) := by
  unfold Search.decideMove
  rw [h.scale]
  refine .bind (.ofExcept _) fun verdict => .bind ?_ fun moves => ?_
  · cases verdict with
    | accepted | rejected => exact .pure _
    | chance probability => exact .bind h.draw fun _ => .pure _
  · cases moves with
    | true => exact .bind (.ofExcept _) fun _ => .pure _
    | false => exact .pure _

theorem record (level : Nat) (temperature : Float) (s : Standing σ κ) (status : Status) :
    Shows (Progress.shown f) (S'.record level temperature s status)
      (S.record level temperature s status) := by
  unfold Search.record
  rw [h.scale]
  exact .bind (.ofExcept _) fun _ => .bind (.ofExcept _) fun _ _ => rfl

theorem attempt (level : Nat) (temperature : Float) (s : Standing σ κ) :
    Shows (Progress.shown f) (S'.attempt level temperature s) (S.attempt level temperature s) := by
  -- what is recorded in the end is the same whether the candidate was copied before or not
  have recorded (s : Standing σ κ) (status : Status) :
      Shows (Progress.shown f)
        (if S'.isLogged s.trials then S'.record level temperature s status >>= fun _ => Pure.pure s
          else Pure.pure s)
        (if S.isLogged s.trials then S.record level temperature s status >>= fun _ => Pure.pure s
          else Pure.pure s) := by
    rw [h.isLogged]
    exact .ite (.bind (h.record _ _ _ _) fun _ => .pure _) (.pure _)
  unfold Search.attempt
  rw [h.scale]
  refine .bind (inWorld_shows (h.neighbor _)) fun candidate => ?_
  refine .bind (inWorld_shows (h.cost _)) fun k => ?_
  refine .bind (inWorld_shows (h.decideMove _ _ _)) fun move => ?_
  refine .bind (.ofExcept _) fun better => ?_
  exact .ite (.bind (inWorld_shows (h.copy _)) fun best => recorded _ _) (recorded _ _)

theorem attempts (level : Nat) (temperature : Float) :
    ∀ (n : Nat) (s : Standing σ κ),
      Shows (Progress.shown f) (S'.attempts level temperature n s)
        (S.attempts level temperature n s)
  | 0, _ => .pure _
  | n + 1, s => .bind (h.attempt level temperature s) fun s' => attempts level temperature n s'

theorem levels (schedule : Schedule Float) :
    ∀ (fuel level : Nat) (temperature : Float) (s : Standing σ κ),
      Shows (Progress.shown f) (S'.levels schedule fuel level temperature s)
        (S.levels schedule fuel level temperature s)
  | 0, _, _, _ => .throw _
  | fuel + 1, level, temperature, s => by
      unfold Search.levels
      rw [h.options]
      refine .bind (.ofExcept _) fun above => ?_
      cases above with
      | true =>
          refine .bind (h.attempts level temperature _ s) fun s' => .bind (.ofExcept _) fun t => ?_
          exact levels schedule fuel (level + 1) t s'
      | false => exact .pure _

theorem start (initial : σ) : Shows f (S'.start initial) (S.start initial) := by
  refine .bind (h.copy _) fun current => .bind (h.cost _) fun k => ?_
  exact .bind (h.copy _) fun best => .pure _

/-- **A search in a larger world runs as the given one does.** -/
theorem run (initial : σ) : Shows (Progress.shown f) (S'.run initial) (S.run initial) := by
  unfold Search.run
  rw [h.options]
  exact .bind (inWorld_shows (h.start initial)) fun s => h.levels _ _ _ _ s

/-- A trial in a larger world is a trial in the part of it. -/
theorem attempted {temperature : Float} {s s' : Standing σ κ} {w w' : ω'} {status : Status}
    (attempted : S'.Attempted temperature s w status s' w') :
    S.Attempted temperature s (f w) status s' (f w') := by
  cases attempted with
  | better neighbor cost move less copy =>
      exact .better ((h.neighbor _).part_ok neighbor) ((h.cost _).part_ok cost)
        ((h.decideMove _ _ _).part_ok move) (h.scale ▸ less) ((h.copy _).part_ok copy)
  | other neighbor cost move less =>
      exact .other ((h.neighbor _).part_ok neighbor) ((h.cost _).part_ok cost)
        ((h.decideMove _ _ _).part_ok move) (h.scale ▸ less)

end Mirrors

end Search

end Annealing
