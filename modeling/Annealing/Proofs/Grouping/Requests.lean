import Annealing.Proofs.Grouping.Draw
import Annealing.Proofs.Grouping.Exchanged
import Annealing.Proofs.Random.Bounds

/-!
# Grouping — what a swap asks its source for

A source is *lawful* (`Draws.Lawful`) if it answers whatever it is asked for, with different numbers
below the limit or with a number below the limit, as long as there are such numbers.  A generator is
one in every state (`Generator.draws_lawful`).

`Draws.noted` is a source that notes what another is asked for and what it answers.  With it one
sees the requests of a neighbor: none if there are fewer than two candidates
(`Grouping.neighbor_few`), and otherwise those of an admissible draw (`Grouping.neighbor_requests`),
which says what the neighbor is.  So a neighbor is always a swapped grouping
(`Grouping.neighbor_swaps`): the answers never fall outside.
-/

namespace Annealing

variable {ω α : Type}

/-! ### Lawful sources -/

/-- A source that answers with different numbers below a limit of two at least, and with a number
below a limit that is not zero. -/
structure Draws.Lawful (draws : Draws ω) : Prop where
  pair : ∀ {n w}, 2 ≤ n → ∃ i j w', draws.pair n w = .ok (i, j) w' ∧ i < n ∧ j < n ∧ i ≠ j
  below : ∀ {n w}, 0 < n → ∃ k w', draws.below n w = .ok k w' ∧ k < n

/-- **A generator is lawful**, whatever its state. -/
theorem Generator.draws_lawful : Generator.draws.Lawful where
  pair {n w} enough := by
    obtain ⟨hi, hj, hne⟩ := w.pair_distinct enough
    exact ⟨(w.pair n).1.1, (w.pair n).1.2, (w.pair n).2, rfl, hi, hj, hne⟩
  below {n w} some := ⟨(w.below n).1, (w.below n).2, rfl, w.below_lt some⟩

/-! ### Requests -/

/-- What a source is asked for, with the limit, and what it answers. -/
inductive Request where
  | pair (limit first second : Nat)
  | below (limit answer : Nat)
deriving DecidableEq, Repr

/-- The source that answers as another one does, and notes every request. -/
def Draws.noted (draws : Draws ω) : Draws (ω × List Request) where
  pair n := do
    let drawn ← (draws.pair n).inField Prod.fst fun w v => (v, w.2)
    modify fun w => (w.1, w.2 ++ [.pair n drawn.1 drawn.2])
    return drawn
  below n := do
    let drawn ← (draws.below n).inField Prod.fst fun w v => (v, w.2)
    modify fun w => (w.1, w.2 ++ [.below n drawn])
    return drawn

namespace Draws

variable {draws : Draws ω} {w w' : ω} (seen : List Request)

theorem noted_pair {n i j : Nat} (h : draws.pair n w = .ok (i, j) w') :
    draws.noted.pair n (w, seen) = .ok (i, j) (w', seen ++ [.pair n i j]) := by
  have field : (draws.pair n).inField Prod.fst (fun w v => (v, w.2))
      (w, seen) = .ok (i, j) (w', seen) :=
    Effect.inField_ok_iff.mpr ⟨w', h, rfl⟩
  exact Effect.bind_of_ok field

theorem noted_below {n k : Nat} (h : draws.below n w = .ok k w') :
    draws.noted.below n (w, seen) = .ok k (w', seen ++ [.below n k]) := by
  have field : (draws.below n).inField Prod.fst (fun w v => (v, w.2))
      (w, seen) = .ok k (w', seen) :=
    Effect.inField_ok_iff.mpr ⟨w', h, rfl⟩
  exact Effect.bind_of_ok field

end Draws

/-- The requests of a draw. -/
def Draw.requests (d : Draw) (g : Grouping α) : List Request :=
  [.pair g.candidates.length d.first d.second, .below (g.groupSize (group g d.first)) d.firstPlace,
   .below (g.groupSize (group g d.second)) d.secondPlace]

namespace Grouping

/-! ### Neighbors -/

/-- Without two candidates nothing is asked for, and the neighbor is the grouping itself. -/
theorem neighbor_few (draws : Draws ω) {g : Grouping α} (few : g.candidates.length < 2) (w : ω) :
    neighbor draws g w = .ok g w := by
  have undrawn : drawSwap draws g w = .ok none w := by
    simp only [drawSwap, if_pos few]
    rfl
  exact (Effect.bind_of_ok undrawn).trans rfl

/-- The neighbor is the one that the answers of the source lead to. -/
theorem neighbor_of_draw {draws : Draws ω} {g : Grouping α} (enough : 2 ≤ g.candidates.length)
    {d : Draw} {w w₁ w₂ w₃ : ω}
    (pair : draws.pair g.candidates.length w = .ok (d.first, d.second) w₁)
    (first : draws.below (g.groupSize (Draw.group g d.first)) w₁ = .ok d.firstPlace w₂)
    (second : draws.below (g.groupSize (Draw.group g d.second)) w₂ = .ok d.secondPlace w₃) :
    neighbor draws g w = .ok (d.apply g) w₃ := by
  have drawn : drawSwap draws g w = .ok (some (d.swap g)) w₃ := by
    simp only [drawSwap, if_neg (Nat.not_lt_of_le enough)]
    rw [Effect.bind_of_ok pair]
    refine (Effect.bind_of_ok first).trans ?_
    exact (Effect.bind_of_ok second).trans rfl
  exact (Effect.bind_of_ok drawn).trans rfl

/-- **With two candidates the requests are those of an admissible draw, and the neighbor is what the
draw leads to.** -/
theorem neighbor_requests {draws : Draws ω} (lawful : draws.Lawful) {g : Grouping α}
    (enough : 2 ≤ g.candidates.length) (w : ω) :
    ∃ (d : Draw) (w' : ω), d.Admissible g ∧ neighbor draws g w = .ok (d.apply g) w' ∧
      ∀ seen, neighbor draws.noted g (w, seen) = .ok (d.apply g) (w', seen ++ d.requests g) := by
  have filled : ∀ {place}, place < g.candidates.length → 0 < g.groupSize (Draw.group g place) := by
    intro place inside
    have stands : Draw.group g place = g.candidates[place] := by simp [Draw.group, inside]
    rw [stands]
    exact mem_candidates_iff.mp (List.getElem_mem inside)
  obtain ⟨i, j, w₁, pair, hi, hj, apart⟩ := lawful.pair (w := w) enough
  obtain ⟨k, w₂, first, hk⟩ := lawful.below (w := w₁) (filled hi)
  obtain ⟨l, w₃, second, hl⟩ := lawful.below (w := w₂) (filled hj)
  refine ⟨⟨i, j, k, l⟩, w₃, ⟨hi, hj, apart, hk, hl⟩, ?_, fun seen => ?_⟩
  · exact neighbor_of_draw (d := ⟨i, j, k, l⟩) enough pair first second
  · have noted := neighbor_of_draw (d := ⟨i, j, k, l⟩) enough (Draws.noted_pair seen pair)
      (Draws.noted_below _ first) (Draws.noted_below _ second)
    simpa [Draw.requests] using noted

/-- **A neighbor always comes about, and by a swap between places that hold members.** -/
theorem neighbor_swaps {draws : Draws ω} (lawful : draws.Lawful) (g : Grouping α) (w : ω) :
    ∃ h w', neighbor draws g w = .ok h w' ∧ Swapped g h := by
  rcases Nat.lt_or_ge g.candidates.length 2 with few | enough
  · exact ⟨g, w, neighbor_few draws few w, .inl ⟨few, rfl⟩⟩
  · obtain ⟨d, w', admissible, answer, -⟩ := neighbor_requests lawful enough w
    obtain ⟨a, b, joins⟩ := admissible.joins
    exact ⟨d.apply g, w', answer, .inr ⟨d.swap g, a, b, joins, rfl⟩⟩

end Grouping

end Annealing
