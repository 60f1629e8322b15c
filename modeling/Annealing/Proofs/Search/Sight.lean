import Annealing.Proofs.Search.Journal

/-!
# Search — states as they were generated

What a state holds may be another thing later on: the next call of the strategy may write over it
already.  To say what the candidates of a run held when they were generated, the watched search is
followed in a world that also keeps each of them with the world of that moment, its *sight*
(`Search.sighted`).

* `Search.sights` are the sights of the initial state and of all candidates of a run, in their
  order.
* `Search.sighted_of_run`: a run that answers is a sighted run that answers, with these sights at
  its end.
-/

namespace Annealing

variable {ω σ κ : Type}

/-- A state in the world in which it is looked at. -/
structure Sight (ω σ : Type) where
  state : σ
  world : ω

/-- A watched world, with the candidates as they were generated in it. -/
structure Sighted (ω σ κ : Type) where
  watched : Watched ω σ κ
  sights : List (Sight ω σ)

namespace Search

/-- An effect of the watched search. -/
def inWatched {α : Type} (act : Effect (Watched ω σ κ) α) : Effect (Sighted ω σ κ) α :=
  act.inField Sighted.watched fun w watched => { w with watched }

/-- An effect of the watched search whose answer is looked at. -/
def sight (act : Effect (Watched ω σ κ) σ) : Effect (Sighted ω σ κ) σ := do
  let x ← inWatched act
  modify fun w => { w with sights := w.sights ++ [⟨x, w.watched.world⟩] }
  return x

/-- The watched search in which every candidate is looked at when it is generated. -/
def sighted (S : Search ω σ κ) : Search (Sighted ω σ κ) σ κ where
  copy s := inWatched (S.watched.copy s)
  neighbor s := sight (S.watched.neighbor s)
  cost s := inWatched (S.watched.cost s)
  draw := inWatched S.watched.draw
  scale := S.scale
  options := S.options
  logging := S.logging

section

variable {w w' : Sighted ω σ κ}

theorem inWatched_ok_iff {α : Type} {act : Effect (Watched ω σ κ) α} {a : α} :
    inWatched act w = .ok a w' ↔ act w.watched = .ok a w'.watched ∧ w'.sights = w.sights := by
  rw [inWatched, Effect.inField_ok_iff]
  constructor
  · rintro ⟨watched, h, rfl⟩
    exact ⟨h, rfl⟩
  · rintro ⟨h, same⟩
    exact ⟨w'.watched, h, by rw [← same]⟩

theorem sight_ok {act : Effect (Watched ω σ κ) σ} {x : σ} (h : sight act w = .ok x w') :
    act w.watched = .ok x w'.watched ∧ w'.sights = w.sights ++ [⟨x, w'.watched.world⟩] := by
  obtain ⟨_, w₁, h₁, h⟩ := Effect.bind_ok_iff.mp h
  obtain ⟨answered, same⟩ := inWatched_ok_iff.mp h₁
  cases h
  exact ⟨answered, congrArg (· ++ _) same⟩

end

/-! ### Looking changes nothing -/

section

open Effect

theorem inWatched_shows {α : Type} (act : Effect (Watched ω σ κ) α) :
    Shows Sighted.watched (inWatched act) act := by
  intro w
  simp only [inWatched, inField]
  cases act w.watched <;> rfl

theorem sight_shows (act : Effect (Watched ω σ κ) σ) : Shows Sighted.watched (sight act) act := by
  have looked : Shows Sighted.watched (sight act) (act >>= fun x => pure x) :=
    .bind (inWatched_shows act) fun _ _ => rfl
  rwa [bind_pure] at looked

theorem sighted_mirrors (S : Search ω σ κ) : Mirrors Sighted.watched S.sighted S.watched where
  copy _ := inWatched_shows _
  neighbor _ := sight_shows _
  cost _ := inWatched_shows _
  draw := inWatched_shows _
  scale := rfl
  options := rfl
  logging := rfl

end

/-! ### The sights of a run -/

/-- The progress of a sighted search before its first call. -/
def unsighted (p : Progress ω) : Progress (Sighted ω σ κ) := ⟨⟨⟨p.world, []⟩, []⟩, p.log⟩

/-- The initial state and the candidates of a run, each in the world in which the search came by
it. -/
def sights (S : Search ω σ κ) (initial : σ) (p : Progress ω) : List (Sight ω σ) :=
  ⟨initial, p.world⟩ :: ((S.sighted.run initial).outcome (unsighted p)).2.world.sights

/-- A run that answers is a sighted run that answers, with the journal and the sights at its end. -/
theorem sighted_of_run {S : Search ω σ κ} {initial : σ} {p p' : Progress ω} {s : Standing σ κ}
    (h : S.run initial p = .ok s p') :
    ∃ later, S.sights initial p = ⟨initial, p.world⟩ :: later ∧
      S.sighted.run initial (unsighted p) =
        .ok s ⟨⟨⟨p'.world, S.journal initial p⟩, later⟩, p'.log⟩ := by
  obtain ⟨⟨⟨watched, later⟩, log⟩, run, shown⟩ :=
    (S.sighted_mirrors.run initial).ok (w := unsighted p) (watched_of_run h)
  cases shown
  refine ⟨later, ?_, run⟩
  rw [sights, Effect.outcome_of_ok run]

end Search

end Annealing
