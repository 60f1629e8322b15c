import Annealing.Proofs.Grouping.Stored

/-!
# Grouping — what swaps do

All that a swap does, for every lawful source and every grouping (`Grouping.neighbor_exchanges`):
what it asks for, which two members it exchanges, and that nothing else is different, neither in the
neighbor nor in the grouping it was made of.  Swaps that follow each other preserve lengths and
members in the same way (`Grouping.repeated_rearranged`).
-/

namespace Annealing.Grouping

variable {ω α : Type}

/-- There are as many candidates as groups with a member. -/
theorem candidatesFrom_length (g : Grouping α) (start : Nat) :
    (candidatesFrom start g).length = g.countP fun group => !group.isEmpty := by
  induction g generalizing start with
  | nil => rfl
  | cons group rest ih =>
      cases group with
      | nil => simp [candidatesFrom, ih]
      | cons m group => simp [candidatesFrom, ih]

/-- Swaps that follow each other come about, and rearrange. -/
theorem repeated_rearranged {draws : Draws ω} (lawful : draws.Lawful) (n : Nat)
    (g : Grouping α) (w : ω) :
    ∃ h w', Effect.repeated (neighbor draws) n g w = .ok h w' ∧ Rearranged g h := by
  induction n generalizing g w with
  | zero => exact ⟨g, w, rfl, .refl g⟩
  | succ n ih =>
      obtain ⟨h, w₁, step, swapped⟩ := neighbor_swaps lawful g w
      obtain ⟨k, w', rest, others⟩ := ih h w₁
      exact ⟨k, w', (Effect.bind_of_ok step).trans rest, swapped.rearranged.trans others⟩

/-- **A swap exchanges two members of different groups and nothing else.**  A generator is a lawful
source, and for every lawful source:

* with fewer than two groups that have a member, nothing is asked for and the neighbor is the
  grouping itself;
* otherwise a pair below the number of these groups is asked for, and a place below the length of
  each of the two groups that it names; the members at these places are exchanged, and if no member
  stands twice, exactly these places and exactly these groups are changed;
* any number of swaps preserves the lengths of the groups and the members, each as often; where they
  are made in a store, the grouping that they start from stays as it is. -/
theorem neighbor_exchanges : Generator.draws.Lawful ∧
    ∀ {ω α : Type} {draws : Draws ω}, draws.Lawful → ∀ (g : Grouping α) (w : ω),
      g.candidates.length = (g.countP fun group => !group.isEmpty) ∧
      (g.candidates.length < 2 → neighbor draws g w = .ok g w ∧
        ∀ seen, neighbor draws.noted g (w, seen) = .ok g (w, seen)) ∧
      (2 ≤ g.candidates.length → ∃ (d : Draw) (h : Grouping α) (w' : ω), d.Admissible g ∧
        neighbor draws g w = .ok h w' ∧
        (∀ seen, neighbor draws.noted g (w, seen) = .ok h (w', seen ++ d.requests g)) ∧
        Exchanged (d.swap g) g h ∧ (g.members.Nodup → Changes (d.swap g) g h)) ∧
      ∀ n, ∃ h w', Effect.repeated (neighbor draws) n g w = .ok h w' ∧ Rearranged g h ∧
        ∀ cells places, (∀ cell ∈ places, cell < cells.length) → Store.read cells places = g →
          ∃ copies cells', Effect.repeated (neighborIn draws) n places
            ⟨w, cells⟩ = .ok copies ⟨w', cells'⟩ ∧
            Store.read cells' copies = h ∧ Store.read cells' places = g ∧ cells <+: cells' ∧
            (0 < n → ∀ cell ∈ copies, cells.length ≤ cell) := by
  refine ⟨Generator.draws_lawful,
    fun {ω α draws} lawful g w => ⟨candidatesFrom_length g 0, ?_, ?_, ?_⟩⟩
  · intro few
    exact ⟨neighbor_few draws few w, fun seen => neighbor_few draws.noted few (w, seen)⟩
  · intro enough
    obtain ⟨d, w', admissible, answer, noted⟩ := neighbor_requests lawful enough w
    obtain ⟨a, b, joins⟩ := admissible.joins
    exact ⟨d, d.apply g, w', admissible, answer, noted, joins.exchanged, joins.exchanged.changes⟩
  · intro n
    obtain ⟨h, w', made, rearranged⟩ := repeated_rearranged lawful n g w
    refine ⟨h, w', made, rearranged, ?_⟩
    rintro cells places inside rfl
    obtain ⟨copies, cells', stored, content, kept, fresh⟩ := repeated_neighborIn inside made
    exact ⟨copies, cells', stored, content, read_of_prefix inside kept, kept, fresh⟩

/-- A grouping of ragged groups, one of them empty. -/
def ragged : Grouping Nat := [[1, 2], [], [3], [4, 5, 6]]

theorem ragged_exchanges :
    2 ≤ ragged.candidates.length ∧ ragged.members.Nodup ∧
      (∃ (d : Draw) (h : Grouping Nat) (w' : Generator × List Request),
        neighbor Generator.draws.noted ragged (Generator.ofNat 7, []) = .ok h w' ∧
        w'.2 = d.requests ragged ∧
          Exchanged (d.swap ragged) ragged h ∧ Changes (d.swap ragged) ragged h) ∧
      Store.read [[4, 5, 6], [3], [1, 2], []] [2, 3, 1, 0] = ragged ∧
      ∃ copies after, Effect.repeated (neighborIn Generator.draws) 3 [2, 3, 1, 0]
          ⟨Generator.ofNat 7, [[4, 5, 6], [3], [1, 2], []]⟩ = .ok copies after ∧
        Store.read after.cells [2, 3, 1, 0] = ragged := by
  obtain ⟨lawful, exchanges⟩ := neighbor_exchanges
  obtain ⟨-, -, one, many⟩ := exchanges lawful ragged (Generator.ofNat 7)
  have enough : 2 ≤ ragged.candidates.length := by decide
  have distinct : ragged.members.Nodup := by decide
  refine ⟨enough, distinct, ?_, rfl, ?_⟩
  · obtain ⟨d, h, w', -, -, noted, exchanged, changes⟩ := one enough
    exact ⟨d, h, (w', d.requests ragged), noted [], rfl, exchanged, changes distinct⟩
  · obtain ⟨h, w', -, -, stored⟩ := many 3
    obtain ⟨copies, cells', made, -, kept, -, -⟩ :=
      stored [[4, 5, 6], [3], [1, 2], []] [2, 3, 1, 0] (by decide) rfl
    exact ⟨copies, ⟨w', cells'⟩, made, kept⟩

end Annealing.Grouping
