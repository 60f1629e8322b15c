import Annealing.Grouping.Validity
import Annealing.Preferences.Table
import Annealing.Proofs.Effect

/-!
# Preferences — the rows are counted in 64 bits

Both ways to preferences refuse a matrix whose rows cannot be counted with a sign in 64 bits
(`ofTable_rows`, `upTo_rows`).
-/

namespace Annealing.Preferences

@[simp] theorem put_rows (p : Preferences) (a b : Nat) (x : Float) :
    (p.put a b x).rows = p.rows := by
  unfold put
  split <;> rfl

@[simp] theorem put_columns (p : Preferences) (a b : Nat) (x : Float) :
    (p.put a b x).columns = p.columns := by
  unfold put
  split <;> rfl

/-- Putting entries leaves the size. -/
theorem foldl_put_size {α : Type} (place : α → Nat × Nat) (score : α → Float)
    (all : List α) (p : Preferences) :
    (all.foldl (fun p r => p.put (place r).1 (place r).2 (score r)) p).rows = p.rows ∧
      (all.foldl (fun p r => p.put (place r).1 (place r).2 (score r)) p).columns = p.columns := by
  induction all generalizing p with
  | nil => exact ⟨rfl, rfl⟩
  | cons r rest ih =>
      obtain ⟨hr, hc⟩ := ih (p.put (place r).1 (place r).2 (score r))
      rw [put_rows] at hr
      rw [put_columns] at hc
      exact ⟨hr, hc⟩

theorem ofPairs_size (size : Nat) (all : List Pair) :
    (ofPairs size all).rows = size ∧ (ofPairs size all).columns = size := by
  obtain ⟨hr, hc⟩ :=
    foldl_put_size (fun r : Pair => (r.first, r.second)) Pair.score all (zero size size)
  obtain ⟨hr', hc'⟩ := foldl_put_size (fun r : Pair => (r.second, r.first)) Pair.score all
    (all.foldl (fun p r => p.put r.first r.second r.score) (zero size size))
  exact ⟨hr'.trans hr, hc'.trans hc⟩

/-- What a table's preferences are made of. -/
theorem ofTable_ok {t : Table} {greatest : Value} {p : Preferences}
    (h : ofTable t greatest = .ok p) :
    ∃ (a b score : List Table.Cell) (first second : List Int) (scores : List Float) (g : Int),
      t.cells? "a" = some a ∧ t.cells? "b" = some b ∧ t.cells? "score" = some score ∧
      a.mapM Table.Cell.rowNumber = .ok first ∧ b.mapM Table.Cell.rowNumber = .ok second ∧
      score.mapM Table.Cell.score = .ok scores ∧ (∀ m ∈ first ++ second, 0 ≤ m) ∧
      greatest.toInt = .ok g ∧
      ((first ++ second).foldl max g + 1).toNat < 2 ^ 63 ∧
      p = ofPairs ((first ++ second).foldl max g + 1).toNat (pairUp first second scores) := by
  unfold ofTable at h
  split at h
  · rename_i a b score ha hb hs
    obtain ⟨first, h₁, h⟩ := except_bind_ok_iff.mp h
    obtain ⟨second, h₂, h⟩ := except_bind_ok_iff.mp h
    obtain ⟨scores, h₃, h⟩ := except_bind_ok_iff.mp h
    by_cases negative : (first ++ second).any (· < 0)
    · simp only [negative, if_true] at h
      cases h
    · simp only [negative, Bool.false_eq_true, if_false] at h
      obtain ⟨g, hg, h⟩ := except_bind_ok_iff.mp h
      obtain ⟨_, hc, h⟩ := except_bind_ok_iff.mp h
      cases h
      refine ⟨a, b, score, first, second, scores, g, ha, hb, hs, h₁, h₂, h₃, ?_, hg, ?_, rfl⟩
      · intro m hm
        simp only [List.any_eq_true, decide_eq_true_eq, not_exists, not_and] at negative
        exact Int.not_lt.mp (negative m hm)
      · rcases Nat.lt_or_ge ((first ++ second).foldl max g + 1).toNat
          (2 ^ 63) with counted | tooMany
        · exact counted
        · rw [checkTable, if_pos tooMany] at hc
          cases hc
  · cases h

theorem ofTable_rows {t : Table} {greatest : Value} {p : Preferences}
    (h : ofTable t greatest = .ok p) :
    p.rows < 2 ^ 63 := by
  obtain ⟨_, _, _, first, second, scores, g, -, -, -, -, -, -, -, -, counted, rfl⟩ := ofTable_ok h
  rw [(ofPairs_size _ _).1]
  exact counted

theorem countBelowDouble_lt {x : Float} {n : Nat} (h : countBelowDouble x = .ok n) :
    n < 2 ^ 63 := by
  unfold countBelowDouble at h
  split at h
  · simp only at h
    split at h
    · cases h
    · cases h
      split
      · exact Nat.two_pow_pos 63
      · omega
  · cases h

theorem countBelow_lt {x : Number} {n : Nat} (h : countBelow x = .ok n) : n < 2 ^ 63 := by
  cases x with
  | int m =>
      obtain ⟨size, hs, h⟩ := except_bind_ok_iff.mp h
      obtain ⟨-, -, h⟩ := except_bind_ok_iff.mp h
      cases h
      exact countBelowDouble_lt hs
  | float x =>
      obtain ⟨size, hs, h⟩ := except_bind_ok_iff.mp h
      obtain ⟨-, -, h⟩ := except_bind_ok_iff.mp h
      cases h
      exact countBelowDouble_lt hs

theorem upTo_rows {greatest : Value} {p : Preferences} (h : upTo greatest = .ok p) :
    p.rows < 2 ^ 63 := by
  obtain ⟨x, -, h⟩ := except_bind_ok_iff.mp h
  obtain ⟨n, hn, h⟩ := except_bind_ok_iff.mp h
  cases h
  exact countBelow_lt hn

end Annealing.Preferences
