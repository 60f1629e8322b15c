import Annealing.Random.Generator

/-!
# Random — what is drawn is in bounds

A number drawn below `n` is below `n` (`Generator.below_lt`), and a pair drawn below `n` consists of
two different numbers below `n` (`Generator.pair_distinct`), whatever state the generator is in.
-/

namespace Annealing.Generator

theorem natural32_lt (g : Generator) : (natural32 g).1 < 2 ^ 32 :=
  g.next32.1.toNat_lt

theorem natural64_lt (g : Generator) : (natural64 g).1 < 2 ^ 64 :=
  g.next64.1.toNat_lt

/-- The high part of a product with `n` is below `n`, however often it is drawn again. -/
theorem drawFair_lt {draw : Generator → Nat × Generator} {modulus threshold n : Nat}
    (bounded : ∀ g, (draw g).1 < modulus) (hn : 0 < n) :
    ∀ (tries : Nat) (g : Generator), (drawFair draw modulus threshold n tries g).1 < n := by
  have high : ∀ g, (draw g).1 * n / modulus < n := by
    intro g
    have hb := bounded g
    have hm : 0 < modulus := Nat.lt_of_le_of_lt (Nat.zero_le _) hb
    rw [Nat.div_lt_iff_lt_mul hm, Nat.mul_comm n modulus]
    exact Nat.mul_lt_mul_of_pos_right hb hn
  intro tries
  induction tries with
  | zero => exact fun g => high g
  | succ tries ih =>
      intro g
      simp only [drawFair]
      split
      · exact ih _
      · exact high g

theorem below_lt {n : Nat} (hn : 0 < n) (g : Generator) : (below n g).1 < n := by
  unfold below
  split
  · exact hn
  · split
    · exact drawFair_lt natural32_lt hn _ g
    · exact drawFair_lt natural64_lt hn _ g

/-- **A pair of different numbers below a limit.** -/
theorem pair_distinct {n : Nat} (hn : 2 ≤ n) (g : Generator) :
    (pair n g).1.1 < n ∧ (pair n g).1.2 < n ∧ (pair n g).1.1 ≠ (pair n g).1.2 := by
  have ha : (below (n - 1) g).1 < n - 1 := below_lt (by omega) g
  have hb : (below n (below (n - 1) g).2).1 < n := below_lt (by omega) _
  -- the second number moves to the last place only, where the first cannot be
  have moved : ∀ a b : Nat, a < n - 1 → b < n →
      (if b = a then n - 1 else b) < n ∧ (if b = a then n - 1 else b) ≠ a := by
    intro a b ha hb
    split <;> omega
  obtain ⟨hlt, hne⟩ := moved _ _ ha hb
  simp only [pair]
  split
  · exact ⟨by omega, hlt, Ne.symm hne⟩
  · exact ⟨hlt, by omega, hne⟩

end Annealing.Generator
