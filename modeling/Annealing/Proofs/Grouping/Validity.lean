import Annealing.Grouping.Validity
import Annealing.Proofs.Grouping.Canonical
import Annealing.Proofs.Grouping.Cost
import Annealing.Proofs.Grouping.Rearranged

/-!
# Grouping — validity does not depend on places

What `Grouping.validate` and `Preferences.validate` look at are the lengths of the groups and the
members, in whatever order.  A rearranged grouping is thus as valid as the original
(`validate_rearranged`, `validate_perm`).

Members that pass both checks are rows of a square matrix (`Preferences.covers_of_valid`), and all
groups of a valid grouping have the same size (`Grouping.length_eq_of_valid`).
-/

open scoped List

namespace Annealing

namespace Grouping

theorem isDistinct_perm {members others : List Int} (h : members ~ others) :
    isDistinct members = isDistinct others := by
  rw [isDistinct, isDistinct, mergeSort_eq_of_perm h]

/-- **A rearranged grouping is as valid as the original.** -/
theorem validate_rearranged {g h : Grouping Int} (rearranged : Rearranged g h) :
    h.validate = g.validate := by
  simp only [validate, check, rearranged.lengths, rearranged.members.any_eq,
    isDistinct_perm rearranged.members]

theorem not_negative_of_valid {g : Grouping Int} (h : g.validate = .ok ()) :
    ∀ m ∈ g.members, 0 ≤ m := by
  intro m hm
  by_cases negative : g.members.any (· < 0)
  · simp only [validate, check, negative, if_true] at h
    cases h
  · simp only [List.any_eq_true, decide_eq_true_eq, not_exists, not_and] at negative
    exact Int.not_lt.mp (negative m hm)

/-- Every size occurs. -/
theorem mem_occurringSizes {sizes : List ℕ} {size : ℕ} (h : size ∈ sizes) :
    size ∈ occurringSizes sizes := by
  -- an item is passed over only behind an equal one
  have kept : ∀ (rest before : List ℕ) (last : ℕ), size = last ∨ size ∈ rest ∨ size ∈ before →
      size ∈ List.eraseRepsBy.loop (· == ·) last rest before := by
    intro rest
    induction rest with
    | nil =>
        intro before last h
        simpa [List.eraseRepsBy.loop, or_comm] using h
    | cons next rest ih =>
        intro before last h
        rw [List.eraseRepsBy.loop]
        split
        · next same =>
          rw [beq_iff_eq] at same
          rw [← same] at h
          refine ih before last ?_
          simp only [List.mem_cons] at h
          tauto
        · refine ih (last :: before) next ?_
          simp only [List.mem_cons] at h ⊢
          tauto
  have sorted : size ∈ sizes.mergeSort fun a b => decide (a ≤ b) := List.mem_mergeSort.mpr h
  rw [occurringSizes, List.eraseReps]
  revert sorted
  cases sizes.mergeSort fun a b => decide (a ≤ b) with
  | nil => exact nofun
  | cons first rest => exact fun sorted => kept rest [] first (by simpa using sorted)

/-- In a valid grouping all groups have the same size. -/
theorem length_eq_of_valid {g : Grouping ℤ} (h : g.validate = .ok ()) {a b : List ℤ}
    (ha : a ∈ g) (hb : b ∈ g) :
    a.length = b.length := by
  have single : ¬ 1 < (occurringSizes (g.map List.length)).length := by
    intro several
    simp only [validate, check, several, if_true] at h
    split at h
    · cases h
    · split at h <;> cases h
  have first := mem_occurringSizes (List.mem_map_of_mem (f := List.length) ha)
  have second := mem_occurringSizes (List.mem_map_of_mem (f := List.length) hb)
  match occurringSizes (g.map List.length), single, first, second with
  | [_], _, first, second =>
      exact (List.mem_singleton.mp first).trans (List.mem_singleton.mp second).symm
  | _ :: _ :: _, single, _, _ => simp at single

end Grouping

namespace Preferences

theorem validate_perm {p : Preferences} {members others : List Int} (h : others ~ members) :
    p.validate others = p.validate members := by
  simp only [validate, h.any_eq]

/-- Members that are not negative and pass the check of the preferences are rows of a square
matrix. -/
theorem covers_of_valid {p : Preferences} {members : List Int} (counted : p.rows < 2 ^ 63)
    (natural : ∀ m ∈ members, 0 ≤ m) (h : p.validate members = .ok ()) : p.Covers members := by
  simp only [validate] at h
  by_cases square : p.isSquare
  · by_cases outside : members.any (· ≥ (p.rows : Int))
    · simp only [square, outside, if_true] at h
      cases h
    · refine ⟨beq_iff_eq.mp square, counted, fun m hm => ⟨natural m hm, ?_⟩⟩
      simp only [List.any_eq_true, decide_eq_true_eq, not_exists, not_and] at outside
      exact Int.not_le.mp (outside m hm)
  · simp only [square] at h
    cases h

end Preferences

end Annealing
