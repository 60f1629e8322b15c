import Annealing.Proofs.Grouping.Readings
import Annealing.Proofs.Traversal
import Mathlib.Algebra.BigOperators.Group.List.Basic
import Mathlib.Algebra.Ring.Rat
import Mathlib.Data.List.FinRange
import Mathlib.Data.List.ProdSigma
import Mathlib.Data.Nat.Choose.Basic
import Mathlib.Tactic.Abel

/-!
# Grouping — every pair counts once

The score of a group adds up the preferences of its pairs.  In a group of `n` members these are the
entries at the places of an earlier and a later member, by the earlier one and then by the later
one, `n * (n - 1) / 2` of them.

* `InOrder`: what the list of the pairs of an earlier and a later place is, without saying how it is
  made.
* `Preferences.notedScore`: the score with every place of the matrix noted before it is read.
* `pairSum`: the sum over all pairs in numbers of any kind.  In doubles it is the score
  (`Preferences.score_eq_pairSum`).
* `Preferences.score_sums_pairs`: the main statement.  In numbers whose addition is exact, the order
  of the members does not count if the matrix is symmetric, and a group of two parts scores as the
  parts and the pairs between them.

Addition of doubles rounds, so the order in which the pairs are added up belongs to the score; of
exact addition only the laws of a commutative monoid are used.
-/

open scoped List

namespace Annealing

section

variable {α β : Type}

/-! ### Pairs -/

@[simp]
theorem pairs_nil : pairs ([] : List α) = [] := rfl

@[simp]
theorem pairs_cons (a : α) (rest : List α) : pairs (a :: rest) = rest.map (a, ·) ++ pairs rest :=
  rfl

theorem pairs_map (f : α → β) (items : List α) :
    pairs (items.map f) = (pairs items).map (Prod.map f f) := by
  induction items with
  | nil => rfl
  | cons a rest ih => simp [ih, Function.comp_def]

theorem length_pairs (items : List α) :
    (pairs items).length = items.length * (items.length - 1) / 2 := by
  rw [← Nat.choose_two_right]
  induction items with
  | nil => rfl
  | cons a rest ih => simp [ih, Nat.choose_succ_succ]

/-- The pairs of items in ascending order are those of which the first is less than the second. -/
theorem mem_pairs_iff [LinearOrder α] {items : List α}
    (ascend : items.Pairwise (· < ·)) {q : α × α} :
    q ∈ pairs items ↔ q.1 ∈ items ∧ q.2 ∈ items ∧ q.1 < q.2 := by
  induction ascend with
  | nil => simp
  | @cons a rest less _ ih =>
      rw [pairs_cons, List.mem_append, ih, List.mem_map]
      constructor
      · rintro (⟨b, hb, rfl⟩ | ⟨first, second, lt⟩)
        · exact ⟨List.mem_cons_self, List.mem_cons_of_mem a hb, less b hb⟩
        · exact ⟨List.mem_cons_of_mem a first, List.mem_cons_of_mem a second, lt⟩
      · rintro ⟨first, second, lt⟩
        -- nothing is less than the first item, so it is no second one
        have later : q.2 ∈ rest := by
          rcases List.mem_cons.mp second with same | later
          · rcases List.mem_cons.mp first with same' | before
            · exact absurd lt (by rw [same, same']; exact lt_irrefl a)
            · exact absurd (less _ before) (by rw [← same]; exact lt_asymm lt)
          · exact later
        rcases List.mem_cons.mp first with same | before
        · exact .inl ⟨q.2, later, by rw [← same]⟩
        · exact .inr ⟨before, later, lt⟩

/-- The pairs of items in ascending order ascend by their first items, and by their second ones
where these are the same. -/
theorem pairs_ascend [LinearOrder α] {items : List α} (ascend : items.Pairwise (· < ·)) :
    (pairs items).Pairwise fun q r => q.1 < r.1 ∨ q.1 = r.1 ∧ q.2 < r.2 := by
  induction ascend with
  | nil => exact .nil
  | @cons a rest less tail ih =>
      rw [pairs_cons, List.pairwise_append]
      refine ⟨?_, ih, ?_⟩
      · rw [List.pairwise_map]
        exact tail.imp fun lt => .inr ⟨rfl, lt⟩
      · intro q hq r hr
        obtain ⟨b, -, rfl⟩ := List.mem_map.mp hq
        exact .inl (less r.1 (mem_of_mem_pairs hr).1)

end

/-- All pairs of an earlier and a later of `n` places, each once, in ascending order. -/
structure InOrder {n : ℕ} (places : List (Fin n × Fin n)) : Prop where
  mem_iff : ∀ q, q ∈ places ↔ q.1 < q.2
  ascend : places.Pairwise fun q r => q.1 < r.1 ∨ q.1 = r.1 ∧ q.2 < r.2

theorem inOrder_pairs (n : ℕ) : InOrder (pairs (List.finRange n)) where
  mem_iff q := by simp [mem_pairs_iff (List.pairwise_lt_finRange n)]
  ascend := pairs_ascend (List.pairwise_lt_finRange n)

/-- The pairs of a list are the items at its pairs of places. -/
theorem pairs_eq_places {α : Type} (items : List α) :
    pairs items = (pairs (List.finRange items.length)).map fun q => (items[q.1], items[q.2]) := by
  conv_lhs => rw [← List.map_get_finRange items, pairs_map]
  rfl

/-! ### Sums over pairs -/

/-- The sum of the entries of all pairs, added up from left to right, starting from zero. -/
def pairSum {α R : Type} [Add R] [Zero R] (entry : α → α → R) (items : List α) : R :=
  ((pairs items).map fun ab => entry ab.1 ab.2).foldl (· + ·) 0

section

variable {α R : Type} [AddCommMonoid R] (entry : α → α → R)

theorem pairSum_eq_sum (items : List α) :
    pairSum entry items = ((pairs items).map fun ab => entry ab.1 ab.2).sum :=
  List.sum_eq_foldl.symm

@[simp]
theorem pairSum_nil : pairSum entry [] = 0 := rfl

@[simp]
theorem pairSum_cons (a : α) (rest : List α) :
    pairSum entry (a :: rest) = (rest.map (entry a)).sum + pairSum entry rest := by
  simp [pairSum_eq_sum, Function.comp_def]

variable {entry}

/-- In exact numbers, the order of the items does not count where the entries are symmetric. -/
theorem pairSum_perm {items others : List α} (perm : items ~ others)
    (symmetric : ∀ a ∈ items, ∀ b ∈ items, entry a b = entry b a) :
    pairSum entry items = pairSum entry others := by
  induction perm with
  | nil => rfl
  | cons a perm ih =>
      have rest := ih fun b hb c hc =>
        symmetric b (List.mem_cons_of_mem a hb) c (List.mem_cons_of_mem a hc)
      rw [pairSum_cons, pairSum_cons, rest, (perm.map (entry a)).sum_eq]
  | swap a b rest =>
      -- the pair of the two items is the only one that is turned round
      have turned : entry b a = entry a b := symmetric b (by simp) a (by simp)
      simp only [pairSum_cons, List.map_cons, List.sum_cons, turned]
      abel
  | trans perm _ ih ih' =>
      rw [ih symmetric,
        ih' fun a ha b hb => symmetric a (perm.mem_iff.mpr ha) b (perm.mem_iff.mpr hb)]

/-- In exact numbers, the pairs of two lists in a row are those of either list and those between
them. -/
theorem pairSum_append (first second : List α) : pairSum entry (first ++ second) =
    pairSum entry first + pairSum entry second +
      ((first ×ˢ second).map fun ab => entry ab.1 ab.2).sum := by
  induction first with
  | nil => simp
  | cons a rest ih =>
      rw [List.cons_append, pairSum_cons, pairSum_cons, ih, List.product_cons]
      simp only [List.map_append, List.sum_append, List.map_map, Function.comp_def]
      abel

end

/-! ### Scores -/

namespace Preferences

variable {p : Preferences} {members : List ℕ}

/-- The entry at a place, zero outside the matrix. -/
def entry (p : Preferences) (a b : ℕ) : Float := (p.get? a b).getD 0

theorem lookup_of_inside {place : ℕ × ℕ} (inside : p.Inside place) :
    p.lookup place.1 place.2 = .ok (p.entry place.1 place.2) := by
  have read : p.get? place.1 place.2 =
      some (p.changes.getD place (p.ground.entry place.1 place.2)) := if_pos inside
  simp only [lookup, entry, read, Option.getD_some]

/-- Both members of every pair have a row and a column, so every place of a pair lies in the
matrix. -/
theorem inside_of_mem_pairs (included : ∀ m ∈ members, m < p.rows ∧ m < p.columns) {place : ℕ × ℕ}
    (h : place ∈ pairs members) : p.Inside place := by
  obtain ⟨row, column⟩ := mem_of_mem_pairs h
  exact ⟨(included _ row).1, (included _ column).2⟩

/-- The score with every place noted before it is read. -/
def notedScore (p : Preferences) (members : List ℕ) : Effect (List (ℕ × ℕ)) Float := do
  return total (← (pairs members).mapM p.noted)

/-- Without its notes, the noted score is the score. -/
theorem notedScore_shows :
    Effect.Shows (fun _ => ()) (p.notedScore members) (Effect.ofExcept (p.score members)) := by
  simp only [notedScore, score, Effect.ofExcept_bind]
  exact (Grouping.noted_shows_mapM (pairs members)).bind fun xs => Effect.Shows.pure (total xs)

section

variable (included : ∀ m ∈ members, m < p.rows ∧ m < p.columns)

include included

/-- In doubles, the sum over all pairs is the score. -/
theorem score_eq_pairSum : p.score members = .ok (pairSum p.entry members) := by
  have read : (pairs members).mapM (fun ab => p.lookup ab.1 ab.2) =
      .ok ((pairs members).map fun ab => p.entry ab.1 ab.2) :=
    mapM_ok_of_each fun place h => lookup_of_inside (inside_of_mem_pairs included h)
  rw [score, read]
  rfl

/-- The places of the pairs are read, and nothing else. -/
theorem notedScore_outcome :
    (p.notedScore members).outcome [] = (p.score members, pairs members) := by
  have inside : ∀ place ∈ pairs members, p.Inside place := fun place h =>
    inside_of_mem_pairs included h
  rcases noted_mapM (pairs members) (fun place h => (inside place h).1) [] with
    ⟨-, xs, all⟩ | ⟨before, place, after, split, outside, -⟩
  · have ended : p.notedScore members [] = .ok (total xs) (pairs members) := Effect.bind_of_ok all
    have scored := (@notedScore_shows p members).part_ok ended
    rw [Effect.outcome_of_ok ended, (Effect.ofExcept_ok_iff.mp scored).1]
  · exact absurd (inside place (split ▸ by simp)) outside

/-- **The score adds up every pair of members exactly once.**  What is read are the entries at the
pairs of an earlier and a later place in the list of members, in ascending order, and they are added
up as they are read.  In a symmetric matrix of exact numbers every order of the members has the same
score, and members in two parts have the scores of both parts and the entries of all pairs between
them. -/
theorem score_sums_pairs :
    (∃ places : List (Fin members.length × Fin members.length), InOrder places ∧
        places.length = members.length * (members.length - 1) / 2 ∧
        (p.notedScore members).outcome [] =
          (p.score members, places.map fun q => (members[q.1], members[q.2])) ∧
        p.score members =
          .ok ((places.map fun q => p.entry members[q.1] members[q.2]).foldl (· + ·) 0)) ∧
      p.score members = .ok (pairSum p.entry members) ∧
      ∀ {R : Type} [AddCommMonoid R] (entry : ℕ → ℕ → R),
        ((∀ a ∈ members, ∀ b ∈ members, entry a b = entry b a) →
          ∀ others, others ~ members → pairSum entry others = pairSum entry members) ∧
        ∀ first second, first ++ second = members → pairSum entry members =
          pairSum entry first + pairSum entry second +
            ((first ×ˢ second).map fun ab => entry ab.1 ab.2).sum := by
  have scored := score_eq_pairSum included
  refine ⟨⟨pairs (List.finRange members.length), inOrder_pairs _, ?_, ?_, ?_⟩, scored,
    fun entry => ⟨?_, ?_⟩⟩
  · rw [length_pairs, List.length_finRange]
  · rw [notedScore_outcome included, ← pairs_eq_places]
  · rw [scored, pairSum, pairs_eq_places members, List.map_map]
    rfl
  · intro symmetric others perm
    exact (pairSum_perm perm.symm symmetric).symm
  · rintro first second rfl
    exact pairSum_append first second

end

/-- A member that stands twice makes a pair with itself, which is read on the diagonal. -/
theorem repeated_sums_pairs :
    (∀ m ∈ [2, 0, 2], m < (Preferences.parity 3).rows ∧ m < (Preferences.parity 3).columns) ∧
      (parity 3).score [2, 0, 2] = .ok (pairSum (parity 3).entry [2, 0, 2]) ∧
      pairSum (fun a b => (a * b : ℚ)) [0, 2, 2] = pairSum (fun a b => (a * b : ℚ)) [2, 0, 2] := by
  have included : ∀ m ∈ [2, 0, 2], m < (Preferences.parity 3).rows ∧
      m < (Preferences.parity 3).columns := by decide
  obtain ⟨-, scored, exact⟩ := score_sums_pairs included
  exact ⟨included, scored,
    (exact fun a b => (a * b : ℚ)).1 (fun a _ b _ => mul_comm _ _) [0, 2, 2] (by decide)⟩

end Preferences

end Annealing
