import Annealing.Proofs.Grouping.Draw
import Mathlib.Algebra.BigOperators.Group.Finset.Basic
import Mathlib.Algebra.Field.Rat

/-!
# Grouping — the proposal is symmetric

The acceptance rule asks only for the costs of two states and so supposes that a move is as likely
to be proposed as the move back.  Swaps are: a draw that leads from one grouping to another is
admissible there with the same limits, and leads back (`Draw.Reverses`).  Hence the draws from `g`
to `h` are the draws from `h` to `g` (`Grouping.drawsTo_comm`), and both moves have the same
probability (`Grouping.proposal_symmetric`), also where members are repeated and several draws lead
to the same grouping.

* `Grouping.draws` are all admissible draws, `Grouping.drawsTo` those that lead to a grouping.
* `Draw.chance` is the probability of a draw if all pairs of different candidates are equally
  likely, and all places of a group.  `Grouping.chanceOf` adds it up over the draws that lead to a
  grouping.
-/

namespace Annealing

variable {α : Type}

namespace Grouping

/-! ### All draws -/

/-- The draws that the generator may make in a grouping. -/
def draws (g : Grouping α) : Finset Draw :=
  List.toFinset <|
    (List.range g.candidates.length).flatMap fun i =>
      ((List.range g.candidates.length).filter (· ≠ i)).flatMap fun j =>
        (List.range (g.groupSize (Draw.group g i))).flatMap fun k =>
          (List.range (g.groupSize (Draw.group g j))).map fun l =>
            { first := i, second := j, firstPlace := k, secondPlace := l }

@[simp] theorem mem_draws {g : Grouping α} {d : Draw} : d ∈ g.draws ↔ d.Admissible g := by
  simp only [draws, List.mem_toFinset, List.mem_flatMap, List.mem_filter, List.mem_map,
    List.mem_range, decide_eq_true_eq]
  constructor
  · rintro ⟨i, hi, j, ⟨hj, apart⟩, k, hk, l, hl, rfl⟩
    exact ⟨hi, hj, Ne.symm apart, hk, hl⟩
  · intro ha
    exact ⟨d.first, ha.first, d.second, ⟨ha.second, Ne.symm ha.apart⟩, d.firstPlace, ha.firstPlace,
      d.secondPlace, ha.secondPlace, rfl⟩

/-- The draws that lead from one grouping to another. -/
def drawsTo [DecidableEq α] (g h : Grouping α) : Finset Draw :=
  g.draws.filter fun d => d.apply g = h

@[simp] theorem mem_drawsTo [DecidableEq α] {g h : Grouping α} {d : Draw} :
    d ∈ g.drawsTo h ↔ d.Admissible g ∧ d.apply g = h := by
  rw [drawsTo, Finset.mem_filter, mem_draws]

end Grouping

open Grouping

/-- The probability of a draw: of the pair, and of a place in each of the two groups. -/
def Draw.chance (d : Draw) (g : Grouping α) : ℚ :=
  1 / (g.candidates.length * (g.candidates.length - 1)) * (1 / g.groupSize (Draw.group g d.first)) *
    (1 / g.groupSize (Draw.group g d.second))

/-- The probability that the neighbor of one grouping is another.  With fewer than two groups to
choose from the grouping stays as it is. -/
def Grouping.chanceOf [DecidableEq α] (g h : Grouping α) : ℚ :=
  if g.candidates.length < 2 then (if g = h then 1 else 0) else ∑ d ∈ g.drawsTo h, d.chance g

/-! ### Moves and their reversal -/

/-- A draw that leads from `g` to `h` and, there admissible with the same limits, back again; its
mirror leads to `h` as well. -/
structure Draw.Reverses (d : Draw) (g h : Grouping α) : Prop where
  forth : neighbor Tape.draws g d.tape = .ok h { answers := [], limits := d.limits g }
  candidates : h.candidates = g.candidates
  admissible : d.Admissible h
  back : neighbor Tape.draws h d.tape = .ok g { answers := [], limits := d.limits g }
  mirrored : d.mirror.Admissible g
  mirror :
    neighbor Tape.draws g d.mirror.tape = .ok h { answers := [], limits := d.mirror.limits g }

namespace Draw.Admissible

variable {d : Draw} {g : Grouping α}

theorem apply_apply (ha : d.Admissible g) : d.apply (d.apply g) = g := by
  obtain ⟨a, b, joins⟩ := ha.joins
  have same : d.swap (d.apply g) = d.swap g := ha.rearranged.swap d
  calc d.apply (d.apply g)
    _ = (d.swap g).apply ((d.swap g).apply g) := by rw [Draw.apply, same]; rfl
    _ = g := joins.apply_apply

theorem apply_mirror (ha : d.Admissible g) : d.mirror.apply g = d.apply g := by
  obtain ⟨a, b, joins⟩ := ha.joins
  exact joins.apply_mirror

/-- **An admissible draw leads forth and back.** -/
theorem reverses (ha : d.Admissible g) : d.Reverses g (d.apply g) where
  forth := neighbor_tape ha.enough d
  candidates := ha.rearranged.candidates
  admissible := ha.rearranged.admissible_iff.mpr ha
  back := by
    rw [neighbor_tape (ha.rearranged.admissible_iff.mpr ha).enough d, ha.apply_apply,
      ha.rearranged.limits]
  mirrored := ha.mirrored
  mirror := by rw [neighbor_tape ha.enough d.mirror, ha.apply_mirror]

end Draw.Admissible

namespace Grouping

variable [DecidableEq α]

/-- The draws that lead from one grouping to another are those that lead back. -/
theorem drawsTo_comm (g h : Grouping α) : g.drawsTo h = h.drawsTo g := by
  have back : ∀ {g h : Grouping α} {d : Draw}, d ∈ g.drawsTo h → d ∈ h.drawsTo g := by
    intro g h d hd
    obtain ⟨ha, rfl⟩ := mem_drawsTo.mp hd
    exact mem_drawsTo.mpr ⟨ha.reverses.admissible, ha.apply_apply⟩
  exact Finset.ext fun d => ⟨back, back⟩

/-- A draw is as likely where it leads to as where it comes from. -/
theorem chance_of_mem {g h : Grouping α} {d : Draw} (hd : d ∈ g.drawsTo h) :
    d.chance h = d.chance g := by
  obtain ⟨ha, rfl⟩ := mem_drawsTo.mp hd
  simp only [Draw.chance, ha.rearranged.candidates, ha.rearranged.group, ha.rearranged.groupSize]

/-- A grouping with fewer than two groups to choose from is left by no draw. -/
theorem drawsTo_of_few {g : Grouping α} (few : g.candidates.length < 2) (h : Grouping α) :
    g.drawsTo h = ∅ := by
  refine Finset.eq_empty_of_forall_notMem fun d hd => ?_
  have enough := (mem_drawsTo.mp hd).1.enough
  omega

theorem chanceOf_comm (g h : Grouping α) : g.chanceOf h = h.chanceOf g := by
  have sums : ∑ d ∈ g.drawsTo h, d.chance g = ∑ d ∈ h.drawsTo g, d.chance h := by
    rw [drawsTo_comm h g]
    exact Finset.sum_congr rfl fun d hd => (chance_of_mem hd).symm
  by_cases same : g = h
  · rw [same]
  · by_cases few : g.candidates.length < 2
    · -- the sum on the other side is empty, since no draw leads out of `g`
      have none : ∑ d ∈ h.drawsTo g, d.chance h = 0 := by
        rw [← sums, drawsTo_of_few few, Finset.sum_empty]
      simp only [chanceOf, if_pos few, if_neg same, if_neg (Ne.symm same), none, ite_self]
    · by_cases few' : h.candidates.length < 2
      · have none : ∑ d ∈ g.drawsTo h, d.chance g = 0 := by
          rw [sums, drawsTo_of_few few', Finset.sum_empty]
        simp only [chanceOf, if_neg few, if_pos few', if_neg (Ne.symm same), none]
      · simp only [chanceOf, if_neg few, if_neg few', sums]

/-- **Swaps are proposed symmetrically.** -/
theorem proposal_symmetric :
    (∀ (g : Grouping α) (d : Draw), d.Admissible g → d.Reverses g (d.apply g)) ∧
      ∀ g h : Grouping α, (g.drawsTo h).card = (h.drawsTo g).card ∧ g.chanceOf h = h.chanceOf g :=
  ⟨fun _ _ ha => ha.reverses,
    fun g h => ⟨congrArg Finset.card (drawsTo_comm g h), chanceOf_comm g h⟩⟩

/-- Two groups with a member in common around an empty one: two draws lead to where the others stand
swapped. -/
theorem repeated_proposal_symmetric :
    Draw.Admissible ⟨0, 1, 1, 0⟩ ([[7, 3], [], [7, 5]] : Grouping Int) ∧
      Draw.Reverses ⟨0, 1, 1, 0⟩ ([[7, 3], [], [7, 5]] : Grouping Int) [[7, 7], [], [3, 5]] ∧
      (drawsTo ([[7, 3], [], [7, 5]] : Grouping Int) [[7, 7], [], [3, 5]]).card = 2 ∧
      (drawsTo ([[7, 7], [], [3, 5]] : Grouping Int) [[7, 3], [], [7, 5]]).card = 2 := by
  have admissible : Draw.Admissible ⟨0, 1, 1, 0⟩ ([[7, 3], [], [7, 5]] : Grouping Int) :=
    ⟨by decide, by decide, by decide, by decide, by decide⟩
  have two : (drawsTo ([[7, 3], [], [7, 5]] : Grouping Int) [[7, 7], [], [3, 5]]).card = 2 := by
    decide
  have symmetric := proposal_symmetric (α := Int)
  refine ⟨admissible, symmetric.1 _ _ admissible, two, ?_⟩
  rw [← (symmetric.2 _ _).1]
  exact two

end Grouping

end Annealing
