import Annealing.Proofs.Search.Contents
import Annealing.Proofs.Search.Attempt

/-!
# Search — copies that are safe from changes

A strategy may make its neighbors by writing over states that it made before, even over the given
one.  What a search keeps is safe from that as long as copies are independent: `apart w s t` says
that in the world `w` nothing done to the state `s` reaches the state `t`.

A strategy *shelters* its copies (`Search.Shelters`) if a copy holds what its original holds and
every other state is apart from it, and generating a neighbor spares all states that are apart from
the given one.  Nothing is asked about other states: a candidate that was turned down may be written
over by the next one.  Where no state is ever changed, all states are apart from each other.  A
script shelters its copies however it moves (`Script.shelters`).

* `Search.run_sheltered`: where a run of such a strategy ends, the best state holds a content of the
  best cost.
-/

namespace Annealing

variable {ω σ κ γ : Type}

/-- No state of the one world holds anything else in the other, and what is apart stays apart. -/
structure Undisturbed (holds : ω → σ → γ → Prop) (apart : ω → σ → σ → Prop) (w w' : ω) : Prop where
  keeps : Keeps holds w w'
  apart : ∀ s t, apart w s t → apart w' s t

theorem Undisturbed.refl {holds : ω → σ → γ → Prop} {apart : ω → σ → σ → Prop} (w : ω) :
    Undisturbed holds apart w w :=
  ⟨fun _ _ h => h, fun _ _ h => h⟩

theorem Undisturbed.trans {holds : ω → σ → γ → Prop} {apart : ω → σ → σ → Prop} {w w₁ w₂ : ω}
    (h₁ : Undisturbed holds apart w w₁) (h₂ : Undisturbed holds apart w₁ w₂) :
    Undisturbed holds apart w w₂ :=
  ⟨h₁.keeps.trans h₂.keeps, fun s t h => h₂.apart s t (h₁.apart s t h)⟩

/-- A strategy with independent copies, which prices contents and changes at most the state it is to
change. -/
structure Search.Shelters (S : Search ω σ κ) (holds : ω → σ → γ → Prop) (apart : ω → σ → σ → Prop)
    (price : γ → κ) : Prop where
  copy_keeps : ∀ {s s' w w'}, S.copy s w = .ok s' w' → Keeps holds w w'
  copy_holds : ∀ {s s' w w' c}, S.copy s w = .ok s' w' → holds w s c → holds w' s' c
  copy_apart : ∀ {s s' w w' t c}, S.copy s w = .ok s' w' → holds w t c → apart w' t s'
  neighbor_spares : ∀ {s s' w w' t c}, S.neighbor s w = .ok s' w' → apart w s t → holds w t c →
    holds w' t c ∧ apart w' s t ∧ apart w' s' t
  neighbor_holds : ∀ {s s' w w' c}, S.neighbor s w = .ok s' w' → holds w s c →
    (∃ c', holds w' s c') ∧ ∃ c', holds w' s' c'
  cost_undisturbed : ∀ {s k w w'}, S.cost s w = .ok k w' → Undisturbed holds apart w w'
  cost_price : ∀ {s k w w' c}, S.cost s w = .ok k w' → holds w s c → price c = k
  draw_undisturbed : ∀ {u w w'}, S.draw w = .ok u w' → Undisturbed holds apart w w'

namespace Search

variable {S : Search ω σ κ} {holds : ω → σ → γ → Prop} {apart : ω → σ → σ → Prop} {price : γ → κ}

/-- The best state holds a content of the best cost, and nothing done to the current state reaches
it. -/
structure Sheltered (holds : ω → σ → γ → Prop) (apart : ω → σ → σ → Prop) (price : γ → κ)
    (s : Standing σ κ) (w : ω) : Prop where
  current : ∃ c, holds w s.current c
  apart : apart w s.current s.best
  best : Costs holds price w s.best s.bestCost

theorem start_sheltered (shelters : S.Shelters holds apart price) {initial : σ} {c₀ : γ}
    {s : Standing σ κ} {w w' : ω} (h₀ : holds w initial c₀) (h : S.start initial w = .ok s w') :
    Sheltered holds apart price s w' := by
  obtain ⟨current, k, best, w₁, w₂, h₁, h₂, h₃, rfl⟩ := S.start_ok_iff.mp h
  have keeps := (shelters.cost_undisturbed h₂).keeps
  have initial₁ := shelters.copy_keeps h₁ _ _ h₀
  have current₂ := keeps _ _ (shelters.copy_holds h₁ h₀)
  exact ⟨⟨c₀, shelters.copy_keeps h₃ _ _ current₂⟩, shelters.copy_apart h₃ current₂, c₀,
    shelters.copy_holds h₃ (keeps _ _ initial₁), shelters.cost_price h₂ initial₁⟩

/-- Deciding about a candidate disturbs nothing. -/
theorem decideMove_undisturbed (shelters : S.Shelters holds apart price) {temperature : Float}
    {current new : κ} {w w' : ω} {move : Bool × Status}
    (h : S.decideMove temperature current new w = .ok move w') :
    Undisturbed holds apart w w' := by
  rcases S.decideMove_ok h with rfl | ⟨u, drawn⟩
  · exact .refl _
  · exact shelters.draw_undisturbed drawn

/-- From its generation to the decision about it, nothing disturbs a candidate. -/
theorem considered_undisturbed (shelters : S.Shelters holds apart price) {candidate : σ}
    {k current : κ} {temperature : Float} {move : Bool × Status} {w₁ w₂ w₃ : ω}
    (cost : S.cost candidate w₁ = .ok k w₂)
    (decide : S.decideMove temperature current k w₂ = .ok move w₃) :
    Undisturbed holds apart w₁ w₃ :=
  (shelters.cost_undisturbed cost).trans (decideMove_undisturbed shelters decide)

/-- **A trial keeps the best state sheltered.** -/
theorem attempted_sheltered (shelters : S.Shelters holds apart price) {temperature : Float}
    {s s' : Standing σ κ} {w w' : ω} {status : Status} (h : Sheltered holds apart price s w)
    (attempted : S.Attempted temperature s w status s' w') : Sheltered holds apart price s' w' := by
  obtain ⟨⟨c, current⟩, apart₀, b, best, priced⟩ := h
  cases attempted with
  | @better candidate best' k moves _ w₁ w₂ w₃ _ neighbor cost move less copy =>
      -- the new best state is apart from everything there was before it
      have kept := (considered_undisturbed shelters cost move).keeps
      obtain ⟨⟨c₁, current₁⟩, c₂, candidate₁⟩ := shelters.neighbor_holds neighbor current
      have current₃ := kept _ _ current₁
      have candidate₃ := kept _ _ candidate₁
      refine ⟨?_, ?_, c₂, shelters.copy_holds copy candidate₃, shelters.cost_price cost candidate₁⟩
      · exact Standing.after_current (P := fun x => ∃ c, holds w' x c)
          ⟨c₁, shelters.copy_keeps copy _ _ current₃⟩
          ⟨c₂, shelters.copy_keeps copy _ _ candidate₃⟩ moves k
      · exact Standing.after_current (P := fun x => apart w' x best')
          (shelters.copy_apart copy current₃)
          (shelters.copy_apart copy candidate₃) moves k
  | @other candidate k moves _ w₁ w₂ _ neighbor cost move less =>
      have undisturbed := considered_undisturbed shelters cost move
      obtain ⟨⟨c₁, current₁⟩, c₂, candidate₁⟩ := shelters.neighbor_holds neighbor current
      obtain ⟨best₁, apart₁, apart₁'⟩ := shelters.neighbor_spares neighbor apart₀ best
      refine ⟨?_, ?_, b, ?_, ?_⟩
      · exact Standing.after_current (P := fun x => ∃ c, holds w' x c)
          ⟨c₁, undisturbed.keeps _ _ current₁⟩
          ⟨c₂, undisturbed.keeps _ _ candidate₁⟩ moves k
      · rw [Standing.after_best]
        exact Standing.after_current (P := fun x => apart w' x s.best)
          (undisturbed.apart _ _ apart₁)
          (undisturbed.apart _ _ apart₁') moves k
      · rw [Standing.after_best]
        exact undisturbed.keeps _ _ best₁
      · rw [Standing.after_bestCost]
        exact priced

/-- **Where a run ends, the best state holds a content of the best cost.** -/
theorem run_sheltered (shelters : S.Shelters holds apart price) {initial : σ} {c₀ : γ}
    {s : Standing σ κ} {p p' : Progress ω} (h₀ : holds p.world initial c₀)
    (h : S.run initial p = .ok s p') :
    Sheltered holds apart price s p'.world :=
  run_ok (start_sheltered shelters h₀) (attempted_sheltered shelters) h

end Search

/-! ### Scripts -/

namespace Script

variable {s : Script} {j j' : Journal}

/-- A cell that holds something is not the next new one. -/
theorem ne_size_of_holds {cell : Nat} {x : Int} (held : holds j cell x) : cell ≠ j.cells.size :=
  Nat.ne_of_lt (Array.getElem?_eq_some_iff.mp held).1

/-- However a script moves, the other cells keep what they hold, and the neighbor is none of
them. -/
theorem neighbor_spares {cell cell' other : Nat} {x : Int} (h : s.neighbor cell j = .ok cell' j')
    (apart : cell ≠ other) (held : holds j other x) : holds j' other x ∧ cell' ≠ other := by
  obtain ⟨-, y, cells, rfl⟩ | ⟨-, y, cells, rfl⟩ := neighbor_cells h
  · exact ⟨keeps_of_push cells _ _ held, (ne_size_of_holds held).symm⟩
  · refine ⟨?_, apart⟩
    rw [holds, cells, Array.getElem?_setIfInBounds_ne apart]
    exact held

/-- The given cell and the neighbor hold something. -/
theorem neighbor_holds {cell cell' : Nat} {x : Int}
    (h : s.neighbor cell j = .ok cell' j') (held : holds j cell x) :
    (∃ y, holds j' cell y) ∧ ∃ y, holds j' cell' y := by
  obtain ⟨-, y, cells, rfl⟩ | ⟨-, y, cells, rfl⟩ := neighbor_cells h
  · exact ⟨⟨x, keeps_of_push cells _ _ held⟩, y, holds_of_push cells⟩
  · have changed : holds j' cell' y := by
      rw [holds, cells]
      exact Array.getElem?_setIfInBounds_self_of_lt (Array.getElem?_eq_some_iff.mp held).1
    exact ⟨⟨y, changed⟩, y, changed⟩

/-- However a script moves, it shelters what its cells hold. -/
theorem shelters (s : Script) (options : Options) (logging : Bool) :
    (s.search options logging).Shelters holds (fun _ cell other => cell ≠ other) s.price where
  copy_keeps h := keeps_of_push (copy_cells h).1
  copy_holds := copy_holds
  copy_apart h held := (copy_cells h).2 ▸ ne_size_of_holds held
  neighbor_spares h apart held :=
    have ⟨kept, apart'⟩ := neighbor_spares h apart held
    ⟨kept, apart, apart'⟩
  neighbor_holds := neighbor_holds
  cost_undisturbed h := ⟨keeps_of_same (cost_cells h).1, fun _ _ h => h⟩
  cost_price := cost_price
  draw_undisturbed h := ⟨keeps_of_same (draw_cells h), fun _ _ h => h⟩

end Script

end Annealing
