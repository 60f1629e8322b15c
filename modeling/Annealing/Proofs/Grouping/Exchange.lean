import Annealing.Proofs.Grouping.Rearranged

/-!
# Grouping — the algebra of swaps

A swap changes no group's length, so the groups to choose from and their sizes are the same before
and after it (`Rearranged.candidates`, `Rearranged.groupSize`).  The swap that joins two members
joins them the other way round afterwards (`Swap.Joins.after`).  So it undoes itself
(`Swap.Joins.apply_apply`), and it does not matter which of its two places is named first
(`Swap.Joins.apply_mirror`).
-/

namespace Annealing

namespace Grouping

variable {α : Type}

/-! ### Replacing twice -/

theorem replace_replace (g : Grouping α) (group place : Nat) (m m' : α) :
    (g.replace group place m).replace group place m' = g.replace group place m' := by
  have twice : (List.set · place m') ∘ (List.set · place m) = fun row : List α =>
      row.set place m' := by
    funext row
    exact List.set_set m
  simp only [replace, List.modify_modify_eq, twice]

theorem replace_comm (g : Grouping α) {group other : Nat} (hne : group ≠ other)
    (place at_ : Nat) (m m' : α) :
    (g.replace group place m).replace other at_ m' =
      (g.replace other at_ m').replace group place m := by
  simp only [replace, List.modify_modify_ne _ _ _ hne]

/-- A member replaced by itself. -/
theorem replace_member {g : Grouping α} {group place : Nat} {m : α}
    (h : g.member? group place = some m) :
    g.replace group place m = g := by
  obtain ⟨row, hrow, hm⟩ := Option.bind_eq_some_iff.mp h
  have same : row.set place m = row := by
    obtain ⟨hlt, rfl⟩ := List.getElem?_eq_some_iff.mp hm
    exact List.set_getElem_self hlt
  refine List.ext_getElem? fun i => ?_
  simp only [replace, List.getElem?_modify]
  by_cases hi : group = i
  · subst hi
    simp [hrow, same]
  · simp [hi]

theorem member?_replace_self {g : Grouping α} {group place : Nat} {m : α}
    (h : g.member? group place = some m) (m' : α) :
    (g.replace group place m').member? group place = some m' := by
  obtain ⟨row, hrow, hm⟩ := Option.bind_eq_some_iff.mp h
  have hlt := (List.getElem?_eq_some_iff.mp hm).1
  simp [member?, replace, hrow, List.getElem?_set_self hlt]

/-! ### What depends on lengths only -/

theorem candidatesFrom_congr {g h : Grouping α}
    (lengths : h.map List.length = g.map List.length) (start : Nat) :
    candidatesFrom start h = candidatesFrom start g := by
  induction g generalizing h start with
  | nil =>
      obtain rfl : h = [] := List.map_eq_nil_iff.mp lengths
      rfl
  | cons row g ih =>
      cases h with
      | nil => cases lengths
      | cons row' h =>
          obtain ⟨hrow, hrest⟩ := List.cons_eq_cons.mp lengths
          cases row with
          | nil =>
              obtain rfl : row' = [] := List.length_eq_zero_iff.mp hrow
              exact ih hrest (start + 1)
          | cons m row =>
              obtain ⟨m', row', rfl⟩ := List.exists_cons_of_length_eq_add_one hrow
              exact congrArg (start :: ·) (ih hrest (start + 1))

theorem Rearranged.candidates {g h : Grouping α} (rearranged : Rearranged g h) :
    h.candidates = g.candidates :=
  candidatesFrom_congr rearranged.lengths 0

theorem Rearranged.groupSize {g h : Grouping α} (rearranged : Rearranged g h) (group : Nat) :
    h.groupSize group = g.groupSize group := by
  have place : (h.map List.length)[group]? = (g.map List.length)[group]? := by
    rw [rearranged.lengths]
  rw [List.getElem?_map, List.getElem?_map] at place
  simp only [Grouping.groupSize, place]

/-- The candidates are the groups that have a member. -/
theorem mem_candidatesFrom_iff {g : Grouping α} {start group : Nat} :
    start + group ∈ candidatesFrom start g ↔ 0 < g.groupSize group := by
  constructor
  · intro h
    obtain ⟨-, row, hrow, hpos⟩ := mem_candidatesFrom h
    rw [Nat.add_sub_cancel_left] at hrow
    simp [groupSize, hrow, hpos]
  · intro h
    induction g generalizing start group with
    | nil => simp [groupSize] at h
    | cons row rest ih =>
        have behind : ∀ {place}, 0 < groupSize rest place →
            start + (place + 1) ∈ candidatesFrom (start + 1) rest := by
          intro place hp
          have hrest : start + 1 + place ∈ candidatesFrom (start + 1) rest := ih hp
          rwa [Nat.add_right_comm, Nat.add_assoc] at hrest
        cases group with
        | zero =>
            cases row with
            | nil => simp [groupSize] at h
            | cons m row => exact List.mem_cons_self
        | succ place =>
            have hp : 0 < groupSize rest place := by simpa [groupSize] using h
            cases row with
            | nil => exact behind hp
            | cons m row => exact List.mem_cons_of_mem _ (behind hp)

theorem mem_candidates_iff {g : Grouping α} {group : Nat} :
    group ∈ g.candidates ↔ 0 < g.groupSize group := by
  have h : 0 + group ∈ candidatesFrom 0 g ↔ 0 < g.groupSize group := mem_candidatesFrom_iff
  rwa [Nat.zero_add] at h

/-- A place holds a member exactly if it is below the size of its group. -/
theorem member?_isSome_iff {g : Grouping α} {group place : Nat} :
    (g.member? group place).isSome ↔ place < g.groupSize group := by
  cases hrow : g[group]? with
  | none => simp [member?, groupSize, hrow]
  | some row => simp [member?, groupSize, hrow]

end Grouping

open Grouping

namespace Swap

variable {α : Type}

/-- The swap with its two places in the other order. -/
def mirror (s : Swap) : Swap :=
  { first := s.second, firstPlace := s.secondPlace, second := s.first, secondPlace := s.firstPlace }

namespace Joins

variable {s : Swap} {g : Grouping α} {a b : α}

theorem apply_eq (h : s.Joins g a b) :
    s.apply g = (g.replace s.first s.firstPlace b).replace s.second s.secondPlace a := by
  simp only [Swap.apply, h.first, h.second]

/-- After a swap the members are joined the other way round. -/
theorem after (h : s.Joins g a b) : s.Joins (s.apply g) b a where
  apart := h.apart
  first := by
    rw [h.apply_eq, member?_replace_of_ne _ (Ne.symm h.apart)]
    exact member?_replace_self h.first b
  second := by
    rw [h.apply_eq]
    exact member?_replace_self ((member?_replace_of_ne g h.apart _ _ b).trans h.second) a

/-- **A swap undoes itself.** -/
theorem apply_apply (h : s.Joins g a b) : s.apply (s.apply g) = g := by
  have first : g.replace s.first s.firstPlace a = g := replace_member h.first
  have second : g.replace s.second s.secondPlace b = g := replace_member h.second
  calc s.apply (s.apply g)
    _ = ((s.apply g).replace s.first s.firstPlace a).replace s.second s.secondPlace b :=
      h.after.apply_eq
    _ = (((g.replace s.first s.firstPlace b).replace s.first s.firstPlace a).replace s.second
          s.secondPlace a).replace s.second s.secondPlace b := by
        rw [h.apply_eq, replace_comm _ (Ne.symm h.apart)]
    _ = g := by rw [replace_replace, replace_replace, first, second]

theorem mirrored (h : s.Joins g a b) : s.mirror.Joins g b a := ⟨Ne.symm h.apart, h.second, h.first⟩

/-- **The order of the two places does not matter.** -/
theorem apply_mirror (h : s.Joins g a b) : s.mirror.apply g = s.apply g := by
  rw [h.mirrored.apply_eq, h.apply_eq]
  exact replace_comm g (Ne.symm h.apart) _ _ _ _

end Joins

end Swap

end Annealing
