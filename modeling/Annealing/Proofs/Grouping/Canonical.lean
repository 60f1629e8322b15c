import Annealing.Grouping.Canonical
import Annealing.Proofs.Traversal
import Mathlib.Data.Int.Order.Basic
import Mathlib.Data.List.Lex
import Mathlib.Data.List.Perm.Basic
import Mathlib.Data.List.Sort

/-!
# Grouping — the canonical form tells groupings apart up to order

A grouping is *reordered* (`Grouping.Reordered`) if its members stand in another order within their
groups, and the groups in another order.  The canonical form of a grouping of integers is a
reordering of it in which members and groups ascend, and two groupings have the same canonical form
exactly when one is a reordering of the other (`Grouping.canonical_tells_apart`).

Groups are compared by the lexicographic order of lists (`Grouping.atMost_iff`), which is a linear
order.  All that is needed of sorting is that items of a linear order have one ascending
arrangement.
-/

open scoped List

namespace Annealing.Grouping

/-! ### Ascending arrangements -/

/-- Lists with the same items are the same list when they are sorted. -/
theorem mergeSort_eq_of_perm {α : Type} [LinearOrder α] {l l' : List α} (h : l ~ l') :
    (l.mergeSort fun a b => decide (a ≤ b)) = l'.mergeSort fun a b => decide (a ≤ b) := by
  have perm : (l.mergeSort fun a b => decide (a ≤ b)) ~ l'.mergeSort fun a b => decide (a ≤ b) :=
    (List.mergeSort_perm _ _).trans (h.trans (List.mergeSort_perm _ _).symm)
  exact perm.eq_of_sortedLE List.sortedLE_mergeSort List.sortedLE_mergeSort

/-- The comparison of groups is the lexicographic order of lists. -/
theorem atMost_iff {a b : List ℤ} : atMost a b = true ↔ a ≤ b := by
  rw [← not_lt]
  change atMost a b = true ↔ ¬ List.Lex (· < ·) b a
  induction a generalizing b with
  | nil => simp [atMost]
  | cons x a ih =>
      cases b with
      | nil => simp [atMost]
      | cons y b =>
          rcases lt_trichotomy x y with below | same | above
          · simp [atMost, List.cons_lex_cons_iff, below, below.not_gt, below.ne']
          · simp [atMost, List.cons_lex_cons_iff, same, ih]
          · simp [atMost, List.cons_lex_cons_iff, above, above.not_gt, above.ne']

/-- The members of a group in ascending order. -/
def ascending (group : List ℤ) : List ℤ := group.mergeSort fun a b => decide (a ≤ b)

theorem ascending_perm (group : List ℤ) : ascending group ~ group := List.mergeSort_perm _ _

theorem canonical_eq (g : Grouping ℤ) :
    canonical g = (g.map ascending).mergeSort fun a b => decide (a ≤ b) := by
  have order : atMost = fun a b => decide (a ≤ b) := by
    funext a b
    rw [Bool.eq_iff_iff, atMost_iff, decide_eq_true_iff]
  rw [canonical, order]
  rfl

theorem canonical_perm (g : Grouping ℤ) : canonical g ~ g.map ascending := by
  rw [canonical_eq]
  exact List.mergeSort_perm _ _

/-! ### Reorderings -/

/-- The second grouping is the first with the members in another order within groups, and the groups
in another order. -/
def Reordered {α : Type} (g h : Grouping α) : Prop :=
  ∃ k : Grouping α, List.Forall₂ List.Perm g k ∧ k ~ h

theorem reordered_canonical (g : Grouping ℤ) : Reordered g (canonical g) := by
  refine ⟨g.map ascending, ?_, (canonical_perm g).symm⟩
  rw [List.forall₂_map_right_iff, List.forall₂_same]
  exact fun group _ => (ascending_perm group).symm

/-- Reorderings have the same canonical form. -/
theorem Reordered.canonical_eq {g h : Grouping ℤ} (reordered : Reordered g h) :
    canonical g = canonical h := by
  obtain ⟨k, within, groups⟩ := reordered
  have same : g.map ascending = k.map ascending := by
    clear groups
    induction within with
    | nil => rfl
    | cons first _ ih =>
        rw [List.map_cons, List.map_cons, ih, ascending, ascending, mergeSort_eq_of_perm first]
  rw [Grouping.canonical_eq, Grouping.canonical_eq, same]
  exact mergeSort_eq_of_perm (groups.map ascending)

/-- Groupings with the same canonical form are reorderings. -/
theorem Reordered.of_canonical {g h : Grouping ℤ} (same : canonical g = canonical h) :
    Reordered g h := by
  have sorted : g.map ascending ~ h.map ascending := by
    have forms := (canonical_perm g).symm
    rw [same] at forms
    exact forms.trans (canonical_perm h)
  -- the groups of `h` are put into the order of those of `g`, along their ascending arrangements
  have back :
      List.Forall₂ (fun arranged group => ascending group = arranged) (h.map ascending) h := by
    rw [List.forall₂_map_left_iff, List.forall₂_same]
    exact fun _ _ => rfl
  obtain ⟨k, along, groups⟩ := List.perm_comp_forall₂ sorted back
  refine ⟨k, ?_, groups⟩
  rw [List.forall₂_map_left_iff] at along
  refine along.imp fun group other arranged => ?_
  calc group
    _ ~ ascending group := (ascending_perm group).symm
    _ = ascending other := arranged.symm
    _ ~ other := ascending_perm other

/-! ### Values -/

theorem items_of_integers (group : List ℤ) : group.mapM (integer? ∘ .int) = some group := by
  induction group with
  | nil => rfl
  | cons m rest ih => simp [List.mapM_cons, ih, integer?]

/-- The integers of a grouping that is given as a value are its members. -/
theorem integers?_ints (g : Grouping ℤ) :
    integers? (g.map fun group => group.map .int) = some g := by
  induction g with
  | nil => rfl
  | cons group rest ih =>
      unfold integers? at ih ⊢
      simp [List.mapM_cons, ih, List.mapM_map, items_of_integers]

/-- A grouping of integers has its canonical form also where it is given as a value. -/
theorem canonicalOfValue_ints (g : Grouping ℤ) :
    canonicalOfValue (toValue (g.map fun group => group.map .int)) =
      .ok ((canonical g).map fun group => group.map .int) := by
  have groups : ((g.map fun group => group.map Value.int).map Value.list).mapM Value.items =
      .ok (g.map fun group => group.map Value.int) :=
    mapM_ok_of_inverse fun _ _ => rfl
  simp only [canonicalOfValue, toValue, Value.items, bind, Except.bind, groups, Except.toOption,
    Option.bind, integers?_ints]
  rfl

/-! ### The canonical form -/

/-- **The canonical form tells groupings apart up to order.**  Two groupings have the same canonical
form exactly when one is a reordering of the other.  In a canonical form the members of every group
ascend, the groups ascend lexicographically, and it is its own canonical form. -/
theorem canonical_tells_apart (g h : Grouping ℤ) :
    (canonical g = canonical h ↔ Reordered g h) ∧
      (∀ group ∈ canonical g, group.Pairwise (· ≤ ·)) ∧
      (canonical g).Pairwise (· ≤ ·) ∧
      canonical (canonical g) = canonical g ∧
      canonicalOfValue (toValue (g.map fun group => group.map .int)) =
        .ok ((canonical g).map fun group => group.map .int) := by
  refine ⟨⟨Reordered.of_canonical, Reordered.canonical_eq⟩, ?_, ?_, ?_, canonicalOfValue_ints g⟩
  · intro group hgroup
    obtain ⟨original, -, rfl⟩ := List.mem_map.mp ((canonical_perm g).mem_iff.mp hgroup)
    exact List.sortedLE_mergeSort.pairwise
  · rw [canonical_eq]
    exact List.sortedLE_mergeSort.pairwise
  · exact (reordered_canonical g).canonical_eq.symm

end Annealing.Grouping
