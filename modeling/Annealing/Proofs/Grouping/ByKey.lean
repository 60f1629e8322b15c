import Annealing.Grouping.Table
import Annealing.Proofs.Traversal
import Mathlib.Data.List.SplitBy

/-!
# Grouping — rows by their keys

Collecting rows by their keys looks at nothing but the keys, so it makes no difference what the rows
hold (`Grouping.byKey_map`), and no row is lost or made twice (`Grouping.members_byKey`).  What
stands in the groups is thus told by the numbers of the rows that stand there
(`Grouping.places_byKey`): they are those of the rows with a key, each once
(`Grouping.members_places`).

Rows with integers as keys are sorted by these (`Grouping.byKey_ints`).
-/

namespace Annealing.Grouping

variable {α β : Type}

/-- Runs of items are those of what is made of the items, if the same items stand together. -/
theorem map_splitBy {r : α → α → Bool} {s : β → β → Bool} {f : α → β}
    (alike : ∀ a b, r a b = s (f a) (f b)) (items : List α) :
    (items.splitBy r).map (List.map f) = (items.map f).splitBy s := by
  refine (List.splitBy_eq_iff.mpr ⟨?_, ?_, ?_, ?_⟩).symm
  · rw [← List.map_flatten, List.flatten_splitBy]
  · intro empty
    obtain ⟨group, hgroup, none⟩ := List.mem_map.mp empty
    exact List.ne_nil_of_mem_splitBy hgroup (List.map_eq_nil_iff.mp none)
  · rw [List.forall_mem_map]
    intro group hgroup
    rw [List.isChain_map]
    exact (List.isChain_of_mem_splitBy hgroup).imp fun a b together => by rwa [← alike]
  · rw [List.isChain_map]
    refine (List.isChain_getLast_head_splitBy r items).imp fun group next h => ?_
    obtain ⟨some, some', apart⟩ := h
    refine ⟨mt List.map_eq_nil_iff.mp some, mt List.map_eq_nil_iff.mp some', ?_⟩
    rwa [List.getLast_map, List.head_map, ← alike]

/-! ### Rows of any keys -/

/-- **Collecting by keys makes no difference between items.** -/
theorem byKey_map (f : α → β) (rows : List (Value × α)) :
    byKey (rows.map fun r => (r.1, f r.2)) = (byKey rows).map (List.map f) := by
  have sorted : (rows.mergeSort fun r s => mayPrecede r.1 s.1).map (fun r => (r.1, f r.2)) =
      (rows.map fun r => (r.1, f r.2)).mergeSort fun r s => mayPrecede r.1 s.1 :=
    List.map_mergeSort fun _ _ _ _ => rfl
  have runs := map_splitBy (r := fun r s : Value × α => r.1.same s.1)
    (s := fun r s : Value × β => r.1.same s.1)
    (f := fun r => (r.1, f r.2)) (fun _ _ => rfl) (rows.mergeSort fun r s => mayPrecede r.1 s.1)
  rw [byKey, ← sorted, ← runs]
  simp [byKey, Function.comp_def]

/-- **No row is lost or made twice.** -/
theorem members_byKey (rows : List (Value × α)) : (byKey rows).members.Perm (rows.map (·.2)) := by
  have flat : (byKey rows).members = (rows.mergeSort fun r s => mayPrecede r.1 s.1).map (·.2) := by
    rw [members, byKey, ← List.map_flatten, List.flatten_splitBy]
  rw [flat]
  exact (List.mergeSort_perm rows _).map _

theorem keyed_map (f : α → β) (keys : List (Option Value)) (items : List α) :
    keyed keys (items.map f) = (keyed keys items).map fun r => (r.1, f r.2) := by
  simp only [keyed, List.zip_map_right, List.filterMap_map, List.map_filterMap, Option.map_map]
  rfl

/-! ### The numbers of the rows -/

/-- The numbers of the rows in their groups. -/
def places (keys : List (Option Value)) (height : ℕ) : Grouping ℕ :=
  byKey (keyed keys (List.range height))

/-- **Every item stands where the number of its row does.** -/
theorem places_byKey (keys : List (Option Value)) (items : List α) :
    List.Forall₂ (List.Forall₂ fun row c => items[row]? = some c) (places keys items.length)
      (byKey (keyed keys items)) := by
  have same : (places keys items.length).map (List.map fun row => items[row]?) =
      (byKey (keyed keys items)).map (List.map some) := by
    rw [places, ← byKey_map, ← keyed_map, range_map_getElem?, keyed_map, byKey_map]
  exact (forall₂_of_map_eq same).imp fun _ _ group => forall₂_of_map_eq group

/-- Whether a row has a key. -/
def HasKey (keys : List (Option Value)) (row : ℕ) : Prop := ∃ key, keys[row]? = some (some key)

theorem keyed_numbers (keys : List (Option Value)) : ∀ first height : ℕ,
    (keyed keys (List.range' first height)).map (·.2) =
      (List.range' first height).filter fun row => keys[row - first]?.join.isSome := by
  induction keys with
  | nil => intro first height; simp [keyed]
  | cons key rest ih =>
      intro first height
      cases height with
      | zero => simp [keyed]
      | succ height =>
          have later : (List.range' (first + 1) height).filter
              (fun row => (key :: rest)[row - first]?.join.isSome) =
              (List.range' (first + 1) height).filter fun row =>
                rest[row - (first + 1)]?.join.isSome := by
            refine List.filter_congr fun row hrow => ?_
            have above : row - first = row - (first + 1) + 1 := by
              have := (List.mem_range'_1.mp hrow).1
              omega
            rw [above, List.getElem?_cons_succ]
          have next := ih (first + 1) height
          rw [← later] at next
          rw [List.range'_succ, List.filter_cons, ← next]
          cases key <;> simp [keyed]

/-- **The rows in the groups are those with a key, each once.** -/
theorem members_places (keys : List (Option Value)) (height : ℕ) :
    (places keys height).members.Nodup ∧ ∀ row, row ∈ (places keys height).members ↔
    row < height ∧ HasKey keys row := by
  have perm := members_byKey (keyed keys (List.range height))
  rw [List.range_eq_range', keyed_numbers, ← List.range_eq_range'] at perm
  refine ⟨perm.nodup_iff.mpr (List.nodup_range.filter _), fun row => ?_⟩
  rw [places, perm.mem_iff, List.mem_filter, List.mem_range, Nat.sub_zero, HasKey]
  refine and_congr_right fun _ => ?_
  cases keys[row]? with
  | none => simp
  | some key => cases key <;> simp

/-! ### Integers as keys -/

/-- Rows with integers as keys are sorted by these. -/
theorem byKey_ints (rows : List (ℤ × α)) :
    byKey (rows.map fun r => (.int r.1, r.2)) =
      ((rows.mergeSort fun r s => decide (r.1 ≤ s.1)).splitBy fun r s => r.1 ==
        s.1).map (List.map (·.2)) := by
  have precede : ∀ a b : ℤ, mayPrecede (.int a) (.int b) = decide (a ≤ b) := by
    intro a b
    change (compare a b != .gt) = decide (a ≤ b)
    rw [Bool.eq_iff_iff, decide_eq_true_iff, bne_iff_ne, ne_eq, Int.compare_eq_gt, Int.not_lt]
  have same : ∀ a b : ℤ, (a == b) = (Value.int a).same (.int b) := by
    intro a b
    rw [Bool.eq_iff_iff]
    simp [Value.same, Value.number?, Number.compare?]
  have sorted : (rows.mergeSort fun r s => decide (r.1 ≤ s.1)).map (fun r => (Value.int r.1, r.2)) =
      (rows.map fun r => (Value.int r.1, r.2)).mergeSort fun r s => mayPrecede r.1 s.1 :=
    List.map_mergeSort fun r _ s _ => (precede r.1 s.1).symm
  have runs := map_splitBy (r := fun r s : ℤ × α => r.1 == s.1)
    (s := fun r s : Value × α => r.1.same s.1)
    (f := fun r => (.int r.1, r.2)) (fun r s => same r.1 s.1)
    (rows.mergeSort fun r s => decide (r.1 ≤ s.1))
  rw [byKey, ← sorted, ← runs]
  simp [Function.comp_def]

end Annealing.Grouping
