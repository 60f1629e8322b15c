import Annealing.Grouping.Swap
import Annealing.Proofs.Effect
import Mathlib.Data.List.Nodup

/-!
# Grouping — the same members in other places

Two groupings are *rearranged* (`Grouping.Rearranged`) if their groups have the same lengths in the
same order and their members are the same, each as often.  A swap of two members rearranges a
grouping (`Swap.apply_rearranged`).

A grouping is *swapped* (`Grouping.Swapped`) if two members of different groups have changed their
places, or if it has no two groups to choose from and stays as it is.
-/

open scoped List

namespace Annealing

namespace Grouping

variable {α : Type}

/-- Groupings with the same lengths of groups and the same members. -/
structure Rearranged (g h : Grouping α) : Prop where
  lengths : h.map List.length = g.map List.length
  members : h.members ~ g.members

theorem Rearranged.refl (g : Grouping α) : Rearranged g g := ⟨rfl, .refl _⟩

theorem Rearranged.trans {g h k : Grouping α} (h₁ : Rearranged g h) (h₂ : Rearranged h k) :
    Rearranged g k :=
  ⟨h₂.lengths.trans h₁.lengths, h₂.members.trans h₁.members⟩

/-! ### Replacing and swapping -/

theorem replace_lengths (g : Grouping α) (group place : Nat) (m : α) :
    (g.replace group place m).map List.length = g.map List.length := by
  induction g generalizing group with
  | nil => simp [replace]
  | cons row rest ih =>
      cases group with
      | zero => simp [replace]
      | succ group =>
          have hrest := ih group
          simp only [replace] at hrest
          simp [replace, hrest]

theorem set_perm {row : List α} {place : Nat} {a b : α} (h : row[place]? = some a) :
    a :: row.set place b ~ b :: row := by
  induction row generalizing place with
  | nil => cases h
  | cons x row ih =>
      cases place with
      | zero =>
          cases h
          exact .swap _ _ _
      | succ place =>
          have hrow := ih h
          calc a :: x :: row.set place b
            _ ~ x :: a :: row.set place b := .swap _ _ _
            _ ~ x :: b :: row := hrow.cons x
            _ ~ b :: x :: row := .swap _ _ _

/-- Replacing a member exchanges it for the new one. -/
theorem replace_members {g : Grouping α} {group place : Nat} {a b : α}
    (h : g.member? group place = some a) :
    a :: (g.replace group place b).members ~ b :: g.members := by
  induction g generalizing group with
  | nil => cases h
  | cons row rest ih =>
      cases group with
      | zero =>
          have hrow : a :: row.set place b ~ b :: row := set_perm h
          exact hrow.append_right rest.flatten
      | succ group =>
          have hrest : a :: (replace rest group place b).flatten ~ b :: rest.flatten := ih h
          calc a :: (row ++ (replace rest group place b).flatten)
            _ ~ row ++ a :: (replace rest group place b).flatten := List.perm_middle.symm
            _ ~ row ++ b :: rest.flatten := hrest.append_left row
            _ ~ b :: (row ++ rest.flatten) := List.perm_middle

theorem member?_replace_of_ne (g : Grouping α) {group other : Nat} (hne : group ≠ other)
    (place at_ : Nat) (m : α) :
    (g.replace group place m).member? other at_ = g.member? other at_ := by
  simp only [member?, replace, List.getElem?_modify_ne _ _ hne]

end Grouping

open Grouping

/-- The places of a swap hold these members, in two different groups. -/
structure Swap.Joins {α : Type} (s : Swap) (g : Grouping α) (a b : α) : Prop where
  apart : s.first ≠ s.second
  first : g.member? s.first s.firstPlace = some a
  second : g.member? s.second s.secondPlace = some b

/-- **A swap rearranges.** -/
theorem Swap.apply_rearranged {α : Type} {s : Swap} {g : Grouping α} {a b : α} (h : s.Joins g a b) :
    Rearranged g (s.apply g) := by
  have applied :
      s.apply g = (g.replace s.first s.firstPlace b).replace s.second s.secondPlace a := by
    simp only [apply, h.first, h.second]
  rw [applied]
  constructor
  · rw [replace_lengths, replace_lengths]
  · have h₁ : a :: (g.replace s.first s.firstPlace b).members ~ b :: g.members :=
      replace_members h.first
    have h₂ : b :: ((g.replace s.first s.firstPlace b).replace s.second s.secondPlace a).members ~
        a :: (g.replace s.first s.firstPlace b).members :=
      replace_members ((member?_replace_of_ne g h.apart _ _ b).trans h.second)
    exact (h₂.trans h₁).cons_inv

namespace Grouping

variable {α : Type}

/-! ### Swaps that are drawn -/

/-- The candidates from a number on are the groups that have a member. -/
theorem mem_candidatesFrom {g : Grouping α} {start group : Nat}
    (h : group ∈ candidatesFrom start g) :
    start ≤ group ∧ ∃ row, g[group - start]? = some row ∧ 0 < row.length := by
  induction g generalizing start with
  | nil => cases h
  | cons row rest ih =>
      have behind : group ∈ candidatesFrom (start + 1) rest →
          start ≤ group ∧ ∃ r, (row :: rest)[group - start]? = some r ∧ 0 < r.length := by
        intro hrest
        obtain ⟨hle, r, hr, hl⟩ := ih hrest
        have place : group - start = group - (start + 1) + 1 := by omega
        rw [place]
        exact ⟨by omega, r, hr, hl⟩
      cases row with
      | nil => exact behind h
      | cons m row =>
          rcases List.mem_cons.mp h with rfl | hrest
          · exact ⟨Nat.le_refl _, m :: row, by simp, Nat.succ_pos _⟩
          · exact behind hrest

theorem candidatesFrom_nodup (g : Grouping α) (start : Nat) : (candidatesFrom start g).Nodup := by
  induction g generalizing start with
  | nil => exact List.nodup_nil
  | cons row rest ih =>
      cases row with
      | nil => exact ih (start + 1)
      | cons m row =>
          refine List.nodup_cons.mpr ⟨fun h => ?_, ih (start + 1)⟩
          have hle := (mem_candidatesFrom h).1
          omega

/-- What a neighbor is: the grouping after a swap between two groups, or the grouping itself if
there are no two groups to choose from. -/
def Swapped (g h : Grouping α) : Prop :=
  (g.candidates.length < 2 ∧ h = g) ∨ ∃ (s : Swap) (a b : α), s.Joins g a b ∧ h = s.apply g

theorem Swapped.rearranged {g h : Grouping α} (swapped : Swapped g h) : Rearranged g h := by
  rcases swapped with ⟨-, rfl⟩ | ⟨s, a, b, joins, rfl⟩
  · exact .refl _
  · exact Swap.apply_rearranged joins

end Grouping

end Annealing
