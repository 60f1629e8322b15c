import Annealing.Proofs.Grouping.Exchange

/-!
# Grouping — prescribed draws

A draw (`Draw`) is what a neighbor is made from: an ordered pair of places in the list of
candidates, and a place in each of the two groups.  It is *admissible* in a grouping if the
generator may answer so: the pair is one of different places, and every number is below the limit
that is passed.

A tape (`Tape`) is a source that answers with prescribed numbers and notes the limits it is asked
for.  With the numbers of a draw on it, `Grouping.neighbor` makes the swap that the draw stands for
(`Grouping.neighbor_tape`).

* `Draw.Admissible.joins`: an admissible draw stands for a swap between places that hold members of
  different groups.
* `Swap.Joins.exists_draw`: every such swap comes from an admissible draw.
-/

namespace Annealing

/-- Two places in the list of candidates, and a place in each of the groups that stand there. -/
structure Draw where
  first : Nat
  second : Nat
  firstPlace : Nat
  secondPlace : Nat
deriving DecidableEq, Repr

/-- Numbers that are still to be answered, and the limits that were asked for so far. -/
structure Tape where
  answers : List Nat
  limits : List Nat
deriving DecidableEq, Repr

/-- The source that answers with the numbers on a tape, one after the other. -/
def Tape.draws : Draws Tape where
  pair n := Effect.ofStep fun t =>
    ((t.answers.getD 0 0, t.answers.getD 1 0),
      { answers := t.answers.drop 2, limits := t.limits ++ [n] })
  below n := Effect.ofStep fun t =>
    (t.answers.getD 0 0, { answers := t.answers.drop 1, limits := t.limits ++ [n] })

namespace Draw

variable {α : Type}

/-- The tape with the numbers of a draw on it. -/
def tape (d : Draw) : Tape :=
  { answers := [d.first, d.second, d.firstPlace, d.secondPlace], limits := [] }

/-- The group that stands at a place of the list of candidates. -/
def group (g : Grouping α) (place : Nat) : Nat := g.candidates.getD place 0

/-- The limits that are passed for a draw. -/
def limits (d : Draw) (g : Grouping α) : List Nat :=
  [g.candidates.length, g.groupSize (group g d.first), g.groupSize (group g d.second)]

/-- The generator may draw so. -/
structure Admissible (d : Draw) (g : Grouping α) : Prop where
  first : d.first < g.candidates.length
  second : d.second < g.candidates.length
  apart : d.first ≠ d.second
  firstPlace : d.firstPlace < g.groupSize (group g d.first)
  secondPlace : d.secondPlace < g.groupSize (group g d.second)

/-- The swap that a draw stands for. -/
def swap (d : Draw) (g : Grouping α) : Swap :=
  { first := group g d.first, firstPlace := d.firstPlace,
    second := group g d.second, secondPlace := d.secondPlace }

/-- The grouping that a draw leads to. -/
def apply (d : Draw) (g : Grouping α) : Grouping α := (d.swap g).apply g

/-- The draw with its two groups and their places in the other order. -/
def mirror (d : Draw) : Draw :=
  { first := d.second, second := d.first, firstPlace := d.secondPlace, secondPlace := d.firstPlace }

namespace Admissible

variable {d : Draw} {g h : Grouping α}

theorem enough (ha : d.Admissible g) : 2 ≤ g.candidates.length := by
  have h₁ := ha.first
  have h₂ := ha.second
  have h₃ := ha.apart
  omega

theorem mirrored (ha : d.Admissible g) : d.mirror.Admissible g :=
  ⟨ha.second, ha.first, Ne.symm ha.apart, ha.secondPlace, ha.firstPlace⟩

/-- An admissible draw stands for a swap between places that hold members of different groups. -/
theorem joins (ha : d.Admissible g) : ∃ a b, (d.swap g).Joins g a b := by
  have apart : group g d.first ≠ group g d.second := by
    have hfirst := ha.first
    have hsecond := ha.second
    have first : group g d.first = g.candidates[d.first] := by simp [group, hfirst]
    have second : group g d.second = g.candidates[d.second] := by simp [group, hsecond]
    rw [first, second]
    exact fun same => ha.apart ((Grouping.candidatesFrom_nodup g 0).getElem_inj_iff.mp same)
  obtain ⟨a, hfirst⟩ := Option.isSome_iff_exists.mp (Grouping.member?_isSome_iff.mpr ha.firstPlace)
  obtain ⟨b, hsecond⟩ :=
    Option.isSome_iff_exists.mp (Grouping.member?_isSome_iff.mpr ha.secondPlace)
  exact ⟨a, b, apart, hfirst, hsecond⟩

theorem rearranged (ha : d.Admissible g) : Grouping.Rearranged g (d.apply g) := by
  obtain ⟨a, b, joins⟩ := ha.joins
  exact Swap.apply_rearranged joins

end Admissible

end Draw

namespace Grouping.Rearranged

variable {α : Type} {g h : Grouping α}

/-! ### Draws in a rearranged grouping -/

theorem group (rearranged : Rearranged g h) (place : Nat) :
    Draw.group h place = Draw.group g place := by
  simp only [Draw.group, rearranged.candidates]

theorem limits (rearranged : Rearranged g h) (d : Draw) : d.limits h = d.limits g := by
  simp only [Draw.limits, rearranged.candidates, rearranged.group, rearranged.groupSize]

theorem swap (rearranged : Rearranged g h) (d : Draw) : d.swap h = d.swap g := by
  simp only [Draw.swap, rearranged.group]

/-- The same draws are admissible in a rearranged grouping. -/
theorem admissible_iff (rearranged : Rearranged g h) {d : Draw} :
    d.Admissible h ↔ d.Admissible g := by
  have same : ∀ {g h : Grouping α}, Rearranged g h → d.Admissible g → d.Admissible h := by
    intro g h rearranged ha
    constructor
    · rw [rearranged.candidates]; exact ha.first
    · rw [rearranged.candidates]; exact ha.second
    · exact ha.apart
    · rw [rearranged.group, rearranged.groupSize]; exact ha.firstPlace
    · rw [rearranged.group, rearranged.groupSize]; exact ha.secondPlace
  exact ⟨same ⟨rearranged.lengths.symm, rearranged.members.symm⟩, same rearranged⟩

end Grouping.Rearranged

namespace Grouping

variable {α : Type}

/-! ### Neighbors from a tape -/

/-- **With a draw on the tape the neighbor is the one that the draw leads to**, and the limits of
the draw are passed. -/
theorem neighbor_tape {g : Grouping α} (enough : 2 ≤ g.candidates.length) (d : Draw) :
    neighbor Tape.draws g d.tape = .ok (d.apply g) { answers := [], limits := d.limits g } := by
  have few : ¬ g.candidates.length < 2 := Nat.not_lt_of_le enough
  have drawn : drawSwap Tape.draws g d.tape =
      .ok (some (d.swap g)) { answers := [], limits := d.limits g } := by
    simp only [drawSwap, if_neg few]
    rfl
  exact Effect.bind_ok_iff.mpr ⟨some (d.swap g), _, drawn, rfl⟩

end Grouping

/-- Every swap between places that hold members of different groups comes from an admissible
draw. -/
theorem Swap.Joins.exists_draw {α : Type} {s : Swap} {g : Grouping α}
    {a b : α} (joins : s.Joins g a b) :
    ∃ d : Draw, d.Admissible g ∧ d.swap g = s := by
  have firstPlace : s.firstPlace < g.groupSize s.first :=
    Grouping.member?_isSome_iff.mp (Option.isSome_iff_exists.mpr ⟨a, joins.first⟩)
  have secondPlace : s.secondPlace < g.groupSize s.second :=
    Grouping.member?_isSome_iff.mp (Option.isSome_iff_exists.mpr ⟨b, joins.second⟩)
  have stands : ∀ {group}, 0 < g.groupSize group →
      ∃ place, place < g.candidates.length ∧ Draw.group g place = group := by
    intro group hpos
    obtain ⟨place, hlt, hplace⟩ := List.getElem_of_mem (Grouping.mem_candidates_iff.mpr hpos)
    exact ⟨place, hlt, by simp [Draw.group, hlt, hplace]⟩
  obtain ⟨i, hi, first⟩ := stands (Nat.lt_of_le_of_lt (Nat.zero_le _) firstPlace)
  obtain ⟨j, hj, second⟩ := stands (Nat.lt_of_le_of_lt (Nat.zero_le _) secondPlace)
  refine ⟨⟨i, j, s.firstPlace, s.secondPlace⟩, ⟨hi, hj, ?_, ?_, ?_⟩, ?_⟩
  · intro (same : i = j)
    exact joins.apart (first.symm.trans (same ▸ second))
  · simpa only [first] using firstPlace
  · simpa only [second] using secondPlace
  · simp only [Draw.swap, first, second]

end Annealing
