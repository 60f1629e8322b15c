import Annealing.Grouping.Strategy
import Annealing.Proofs.Number.Order
import Annealing.Proofs.Search.Attempt

/-!
# Grouping — the best grouping of a search

A search for a grouping keeps the cost of its best grouping beside it and never computes it again.
It is the cost that is computed from this grouping, and it is that of the initial grouping or below
it (`Grouping.run_best`).
-/

namespace Annealing.Grouping

variable {p : Preferences} {options : Options} {logging : Bool}

/-- The best cost is that of the best grouping, and is the limit or below it. -/
structure Leading (p : Preferences) (limit : Float) (s : Standing (Grouping Int) Float) : Prop where
  cost : cost p s.best = .ok s.bestCost
  notAbove : s.bestCost = limit ∨ s.bestCost < limit

theorem Leading.start {g : Grouping Int} {limit : Float} (initial : Grouping.cost p g = .ok limit)
    {s : Standing (Grouping Int) Float} {w w' : Generator}
    (h : (search p options logging).start g w = .ok s w') :
    Leading p limit s := by
  obtain ⟨current, k, best, w₁, w₂, -, priced, copied, rfl⟩ :=
    (search p options logging).start_ok_iff.mp h
  obtain ⟨same, rfl⟩ := Effect.ofExcept_ok_iff.mp priced
  cases copied
  rw [initial] at same
  cases same
  exact ⟨initial, .inl rfl⟩

/-- **One trial keeps the cost beside the best grouping**, and lowers it at most. -/
theorem Leading.step {limit temperature : Float} {s s' : Standing (Grouping Int) Float}
    {w w' : Generator} {status : Status} (h : Leading p limit s)
    (attempted : (search p options logging).Attempted temperature s w status s' w') :
    Leading p limit s' := by
  cases attempted with
  | @better candidate best k moves _ w₁ w₂ w₃ _ neighbor priced move less copied =>
      obtain ⟨cost, rfl⟩ := Effect.ofExcept_ok_iff.mp priced
      cases copied
      have below : k < s.bestCost := of_decide_eq_true (Except.ok.inj less)
      refine ⟨cost, .inr ?_⟩
      rcases h.notAbove with same | lower
      · exact same ▸ below
      · exact lt_of_le_of_below (le_of_below below) lower
  | other neighbor priced move less => exact ⟨by simpa using h.cost, by simpa using h.notAbove⟩

/-- **The best grouping of a search has the best cost**, which is the initial one or below it. -/
theorem run_best {g : Grouping Int} {limit : Float} (initial : Grouping.cost p g = .ok limit)
    {s : Standing (Grouping Int) Float} {progress progress' : Progress Generator}
    (h : (search p options logging).run g progress = .ok s progress') : Leading p limit s :=
  Search.run_ok (I := fun s _ => Leading p limit s) (.start initial)
    (fun leading attempted => leading.step attempted) h

end Annealing.Grouping
