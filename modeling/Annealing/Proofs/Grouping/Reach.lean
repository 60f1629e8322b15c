import Annealing.Proofs.Grouping.Draw

/-!
# Grouping — what swaps can reach

**Reach** (`Grouping.reaches_iff_rearranged`).  With two groups to choose from, neighbor after
neighbor can lead from a grouping to every grouping that is rearranged from it, and to no other.

A swap exchanges members of different groups only.  Two members of one group are exchanged by three
swaps with a member of some other group, whichever it is (`Grouping.exchange_reached`).  Then the
members are put right one after the other, from the first place on (`Grouping.reached_of_perm`).
For this the places are counted through all groups: `Grouping.place` finds the group and the place
in it.
-/

open scoped List

namespace Annealing.Grouping

variable {α : Type}

/-- Along a sequence of admissible draws, neighbors lead from one grouping to another. -/
inductive Along : Grouping α → List Draw → Grouping α → Prop where
  | stay (g : Grouping α) : Along g [] g
  | move {g g' h : Grouping α} {d : Draw} {ds : List Draw} (admissible : d.Admissible g)
      (drawn : neighbor Tape.draws g d.tape = .ok g' { answers := [], limits := d.limits g })
      (rest : Along g' ds h) : Along g (d :: ds) h

/-- Some sequence of admissible draws leads from one grouping to another. -/
def Reaches (g h : Grouping α) : Prop := ∃ ds, Along g ds h

theorem Along.append {g h k : Grouping α} {ds ds' : List Draw}
    (h₁ : Along g ds h) (h₂ : Along h ds' k) :
    Along g (ds ++ ds') k := by
  induction h₁ with
  | stay _ => exact h₂
  | move admissible drawn _ ih => exact .move admissible drawn (ih h₂)

theorem Along.rearranged {g h : Grouping α} {ds : List Draw} (along : Along g ds h) :
    Rearranged g h := by
  induction along with
  | stay g => exact .refl g
  | @move g g' h d ds admissible drawn _ ih =>
      rw [neighbor_tape admissible.enough d] at drawn
      cases drawn
      exact admissible.rearranged.trans ih

namespace Reaches

theorem refl (g : Grouping α) : Reaches g g := ⟨[], .stay g⟩

theorem trans {g h k : Grouping α} (h₁ : Reaches g h) (h₂ : Reaches h k) : Reaches g k := by
  obtain ⟨ds, h₁⟩ := h₁
  obtain ⟨ds', h₂⟩ := h₂
  exact ⟨ds ++ ds', h₁.append h₂⟩

theorem rearranged {g h : Grouping α} (reaches : Reaches g h) : Rearranged g h := by
  obtain ⟨ds, along⟩ := reaches
  exact along.rearranged

theorem of_joins {s : Swap} {g : Grouping α} {a b : α} (joins : s.Joins g a b) :
    Reaches g (s.apply g) := by
  obtain ⟨d, admissible, rfl⟩ := joins.exists_draw
  exact ⟨[d], .move admissible (neighbor_tape admissible.enough d) (.stay _)⟩

end Reaches

/-! ### Places counted through all groups -/

/-- The group and the place in it of the member with a number, in groups of these sizes. -/
def placeIn : List Nat → Nat → Nat × Nat
  | [], k => (0, k)
  | size :: rest, k =>
      if k < size then (0, k) else ((placeIn rest (k - size)).1 + 1, (placeIn rest (k - size)).2)

/-- The group and the place in it of the member with a number. -/
def place (g : Grouping α) (k : Nat) : Nat × Nat := placeIn (g.map List.length) k

theorem Rearranged.place {g h : Grouping α} (rearranged : Rearranged g h) (k : Nat) :
    h.place k = g.place k := by
  simp only [Grouping.place, rearranged.lengths]

theorem place_cons_of_lt {row : List α} {k : Nat} (hk : k < row.length) (rest : Grouping α) :
    place (row :: rest) k = (0, k) := if_pos hk

theorem place_cons_add (row : List α) (rest : Grouping α) (k : Nat) :
    place (row :: rest) (row.length + k) = ((place rest k).1 + 1, (place rest k).2) := by
  have behind : ¬ row.length + k < row.length := by omega
  simp only [place, List.map_cons, placeIn, if_neg behind, Nat.add_sub_cancel_left]

/-- At the place of a member's number stands the member, and replacing it there replaces it in the
list of all. -/
theorem at_place (g : Grouping α) {k : Nat} (hk : k < g.members.length) :
    g.member? (g.place k).1 (g.place k).2 = g.members[k]? ∧
      ∀ m, (g.replace (g.place k).1 (g.place k).2 m).members = g.members.set k m := by
  induction g generalizing k with
  | nil => cases hk
  | cons row rest ih =>
      by_cases hrow : k < row.length
      · rw [place_cons_of_lt hrow]
        constructor
        · exact (List.getElem?_append_left hrow).symm
        · exact fun m => (List.set_append_left k m hrow).symm
      · obtain ⟨n, rfl⟩ := Nat.exists_eq_add_of_le (Nat.le_of_not_lt hrow)
        have all : members (row :: rest) = row ++ members rest := rfl
        rw [all, List.length_append, Nat.add_lt_add_iff_left] at hk
        obtain ⟨held, replaced⟩ := ih hk
        rw [place_cons_add, all]
        constructor
        · rw [List.getElem?_append_right (Nat.le_add_right _ _), Nat.add_sub_cancel_left]
          exact held
        · intro m
          rw [List.set_append_right _ _ (Nat.le_add_right _ _), Nat.add_sub_cancel_left,
            ← replaced m]
          rfl

/-- Every place that holds a member is the place of a member's number. -/
theorem exists_number {g : Grouping α} {group at_ : Nat} (h : at_ < g.groupSize group) :
    ∃ k, k < g.members.length ∧ g.place k = (group, at_) := by
  induction g generalizing group with
  | nil => simp [groupSize] at h
  | cons row rest ih =>
      cases group with
      | zero =>
          have hrow : at_ < row.length := by simpa [groupSize] using h
          exact ⟨at_, by simp [members]; omega, place_cons_of_lt hrow rest⟩
      | succ group =>
          have hrest : at_ < groupSize rest group := by simpa [groupSize] using h
          obtain ⟨k, hk, hplace⟩ := ih hrest
          refine ⟨row.length + k, by simpa [members] using hk, ?_⟩
          rw [place_cons_add, hplace]

/-! ### Exchanging two members -/

/-- Members of different groups are exchanged by one swap. -/
theorem cross_reached {g : Grouping α} {i j : Nat} {a b : α} (hi : g.members[i]? = some a)
    (hj : g.members[j]? = some b) (apart : (g.place i).1 ≠ (g.place j).1) :
    ∃ h, Reaches g h ∧ h.members = (g.members.set i b).set j a := by
  obtain ⟨heldᵢ, replacedᵢ⟩ := g.at_place (List.getElem?_eq_some_iff.mp hi).1
  have heldⱼ := (g.at_place (List.getElem?_eq_some_iff.mp hj).1).1
  let s : Swap := ⟨(g.place i).1, (g.place i).2, (g.place j).1, (g.place j).2⟩
  have joins : s.Joins g a b := ⟨apart, heldᵢ.trans hi, heldⱼ.trans hj⟩
  refine ⟨s.apply g, .of_joins joins, ?_⟩
  let g' := g.replace (g.place i).1 (g.place i).2 b
  have lengths : g'.map List.length = g.map List.length := replace_lengths _ _ _ _
  have sameplace : g'.place j = g.place j := by simp only [place, lengths]
  have hj' : j < g'.members.length := by
    rw [replacedᵢ, List.length_set]
    exact (List.getElem?_eq_some_iff.mp hj).1
  have replacedⱼ := (g'.at_place hj').2 a
  rw [sameplace, replacedᵢ] at replacedⱼ
  rw [joins.apply_eq]
  exact replacedⱼ

/-- A member of some other group than a given one. -/
theorem exists_elsewhere {g : Grouping α} (enough : 2 ≤ g.candidates.length) (group : Nat) :
    ∃ k c, g.members[k]? = some c ∧ (g.place k).1 ≠ group := by
  have first : g.candidates[0] ∈ g.candidates := List.getElem_mem _
  have second : g.candidates[1] ∈ g.candidates := List.getElem_mem _
  have apart : g.candidates[0] ≠ g.candidates[1] := fun same => by
    have := (candidatesFrom_nodup g 0).getElem_inj_iff.mp same
    omega
  obtain ⟨other, hother, hne⟩ : ∃ other ∈ g.candidates, other ≠ group := by
    by_cases h : g.candidates[0] = group
    · exact ⟨_, second, fun h' => apart (h.trans h'.symm)⟩
    · exact ⟨_, first, h⟩
  obtain ⟨k, hk, hplace⟩ := exists_number (mem_candidates_iff.mp hother)
  exact ⟨k, _, List.getElem?_eq_getElem hk, by rw [hplace]; exact hne⟩

/-- **Any two members can be exchanged.** -/
theorem exchange_reached {g : Grouping α} (enough : 2 ≤ g.candidates.length) {i j : Nat} {a b : α}
    (hij : i ≠ j) (hi : g.members[i]? = some a) (hj : g.members[j]? = some b) :
    ∃ h, Reaches g h ∧ h.members = (g.members.set i b).set j a := by
  by_cases apart : (g.place i).1 = (g.place j).1
  · -- both with a third member in turn, then the first once more
    obtain ⟨t, c, ht, elsewhere⟩ := exists_elsewhere enough (g.place i).1
    have hit : i ≠ t := fun h => elsewhere (h ▸ rfl)
    have hjt : j ≠ t := fun h => elsewhere (h ▸ apart.symm)
    obtain ⟨g₁, r₁, m₁⟩ := cross_reached hi ht (Ne.symm elsewhere)
    have place₁ := r₁.rearranged.place
    have hj₁ : g₁.members[j]? = some b := by rw [m₁]; grind
    have ht₁ : g₁.members[t]? = some a := by rw [m₁]; grind
    have apart₁ : (g₁.place j).1 ≠ (g₁.place t).1 := by
      rw [place₁, place₁, ← apart]
      exact Ne.symm elsewhere
    obtain ⟨g₂, r₂, m₂⟩ := cross_reached hj₁ ht₁ apart₁
    have place₂ := (r₁.trans r₂).rearranged.place
    have hi₂ : g₂.members[i]? = some c := by rw [m₂, m₁]; grind
    have ht₂ : g₂.members[t]? = some b := by rw [m₂, m₁]; grind
    have apart₂ : (g₂.place i).1 ≠ (g₂.place t).1 := by
      rw [place₂, place₂]
      exact Ne.symm elsewhere
    obtain ⟨g₃, r₃, m₃⟩ := cross_reached hi₂ ht₂ apart₂
    refine ⟨g₃, (r₁.trans r₂).trans r₃, List.ext_getElem? fun k => ?_⟩
    rw [m₃, m₂, m₁]
    grind
  · exact cross_reached hi hj apart

/-! ### Putting members right one after the other -/

/-- From the number of `start` members on, the members of `h` stand in another order in `g`. -/
theorem reached_of_perm {h : Grouping α} {rest : List α} :
    ∀ {g : Grouping α} {start unsorted : List α},
    2 ≤ g.candidates.length → h.map List.length = g.map List.length →
    g.members = start ++ unsorted →
    h.members = start ++ rest → unsorted ~ rest → Reaches g h := by
  induction rest with
  | nil =>
      intro g start unsorted _ lengths hg hh perm
      obtain rfl := List.perm_nil.mp perm
      obtain rfl : h = g := List.eq_iff_flatten_eq.mpr ⟨hh.trans hg.symm, lengths⟩
      exact .refl h
  | cons x rest ih =>
      intro g start unsorted enough lengths hg hh perm
      have hh' : h.members = (start ++ [x]) ++ rest := by rw [hh, List.append_assoc]; rfl
      obtain ⟨before, behind, rfl⟩ := List.append_of_mem (perm.mem_iff.mpr List.mem_cons_self)
      cases before with
      | nil =>
          have hg' : g.members = (start ++ [x]) ++ behind := by rw [hg, List.append_assoc]; rfl
          exact ih enough lengths hg' hh' perm.cons_inv
      | cons y before =>
          have first : g.members[start.length]? = some y := by rw [hg]; simp
          have second : g.members[start.length + (before.length + 1)]? = some x := by rw [hg]; simp
          obtain ⟨g', reaches, hg'⟩ := exchange_reached enough (by omega) first second
          have exchanged : g'.members = (start ++ [x]) ++ (before ++ y :: behind) := by
            rw [hg', hg]
            simp
          have rearranged := reaches.rearranged
          have perm' : before ++ y :: behind ~ rest := by
            refine List.Perm.cons_inv (a := x) ?_
            calc x :: (before ++ y :: behind)
              _ ~ x :: y :: (before ++ behind) := List.perm_middle.cons x
              _ ~ y :: x :: (before ++ behind) := .swap _ _ _
              _ ~ y :: (before ++ x :: behind) := List.perm_middle.symm.cons y
              _ ~ x :: rest := perm
          refine reaches.trans (ih ?_ (lengths.trans rearranged.lengths.symm) exchanged hh' perm')
          rw [rearranged.candidates]
          exact enough

/-- **Swaps reach exactly the rearranged groupings.** -/
theorem reaches_iff_rearranged {g h : Grouping α} (enough : 2 ≤ g.candidates.length) :
    Reaches g h ↔ Rearranged g h := by
  constructor
  · exact Reaches.rearranged
  · intro rearranged
    have all : ∀ k : Grouping α, k.members = [] ++ k.members := fun _ => rfl
    exact reached_of_perm enough rearranged.lengths (all g) (all h) rearranged.members.symm

/-- Two members of one group change places, though the only other group with a member has but
one. -/
theorem pair_beside_single_reached :
    2 ≤ (candidates ([[1, 2], [], [3]] : Grouping Int)).length ∧
      Reaches ([[1, 2], [], [3]] : Grouping Int) [[2, 1], [], [3]] := by
  have enough : 2 ≤ (candidates ([[1, 2], [], [3]] : Grouping Int)).length := by decide
  have members : ([2, 1, 3] : List Int) ~ [1, 2, 3] := .swap 1 2 [3]
  exact ⟨enough, (reaches_iff_rearranged enough).mpr ⟨rfl, members⟩⟩

end Annealing.Grouping
