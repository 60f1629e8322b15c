import Annealing.Proofs.Number.Rounding
import Mathlib.Algebra.Order.Field.Power
import Mathlib.Tactic.Linarith
import Mathlib.Tactic.FieldSimp
import Mathlib.Tactic.Positivity
import Annealing.Number.Power

/-!
# Number — which rationals are read as a double

A quotient is read as the double nearest to it.  `Binary64.Rounds b v` says that the rational `v` is
nearer to the double `b` than to any other, or halfway and `b` the even one; below a power of two
this reaches half as far as elsewhere.

* `Binary64.gridExponent_spec`: the grid of doubles on which a quotient is rounded.
* `Binary64.nearestBits_of_rounds`: a quotient that rounds to a double gets its bits.  Just below a
  power of two it is rounded on the finer grid underneath, where the double is one unit more than
  the grid has mantissas for, and the carry gives the same bits.
* `Binary64.nearest_of_rounds`: so it is read as the double.
-/

namespace Annealing

namespace Binary64

/-! ### Powers of two -/

/-- A comparison with a power of two in integers. -/
theorem lt_scaled_iff (num : ℕ) {den : ℕ} (pos : 0 < den) (z : ℤ) :
    (if z < 0 then num * 2 ^ (-z).toNat < den else num < den * 2 ^ z.toNat) ↔
    (num : ℚ) / den < 2 ^ z := by
  have pos : (0 : ℚ) < den := Nat.cast_pos.mpr pos
  rw [div_lt_iff₀ pos]
  split
  · case isTrue neg =>
    obtain ⟨n, rfl⟩ : ∃ n : ℕ, z = -n := ⟨(-z).toNat, by omega⟩
    rw [neg_neg, Int.toNat_natCast, zpow_neg, zpow_natCast, inv_mul_eq_div,
      lt_div_iff₀ (by positivity)]
    exact_mod_cast Iff.rfl
  · case isFalse nonneg =>
    obtain ⟨n, rfl⟩ : ∃ n : ℕ, z = n := ⟨z.toNat, by omega⟩
    rw [Int.toNat_natCast, zpow_natCast, mul_comm]
    exact_mod_cast Iff.rfl

/-- A natural number lies between two powers of two. -/
theorem log2_bounds {n : ℕ} (pos : 0 < n) :
    (2 : ℚ) ^ (n.log2 : ℤ) ≤ n ∧ (n : ℚ) < 2 ^ ((n.log2 : ℤ) + 1) := by
  have low : 2 ^ n.log2 ≤ n := Nat.log2_self_le pos.ne'
  have high : n < 2 ^ (n.log2 + 1) := Nat.lt_log2_self
  constructor
  · rw [zpow_natCast]
    exact_mod_cast low
  · rw [← Nat.cast_succ, zpow_natCast]
    exact_mod_cast high

/-- **The grid around a quotient.**  On it the quotient has 53 binary digits, unless it is below all
doubles of that many. -/
theorem gridExponent_spec {num den : ℕ} (hn : 0 < num) (hd : 0 < den) :
    ∃ k : ℤ, (2 : ℚ) ^ (k + 52) ≤ (num : ℚ) / den ∧ (num : ℚ) / den < 2 ^ (k + 53) ∧
      gridExponent num den = max k (-1074) := by
  obtain ⟨numLow, numHigh⟩ := log2_bounds hn
  obtain ⟨denLow, denHigh⟩ := log2_bounds hd
  have pos : (0 : ℚ) < den := Nat.cast_pos.mpr hd
  have two : (0 : ℚ) < 2 := two_pos
  have low : (2 : ℚ) ^ ((num.log2 : ℤ) - den.log2 - 1) ≤ (num : ℚ) / den := by
    rw [le_div_iff₀ pos]
    calc (2 : ℚ) ^ ((num.log2 : ℤ) - den.log2 - 1) * den
        ≤ 2 ^ ((num.log2 : ℤ) - den.log2 - 1) * 2 ^ ((den.log2 : ℤ) + 1) := by gcongr
      _ = 2 ^ (num.log2 : ℤ) := by rw [← zpow_add₀ two.ne']; congr 1; ring
      _ ≤ num := numLow
  have high : (num : ℚ) / den < 2 ^ ((num.log2 : ℤ) - den.log2 + 1) := by
    rw [div_lt_iff₀ pos]
    calc (num : ℚ) < 2 ^ ((num.log2 : ℤ) + 1) := numHigh
      _ = 2 ^ ((num.log2 : ℤ) - den.log2 + 1) * 2 ^ (den.log2 : ℤ) := by
        rw [← zpow_add₀ two.ne']; congr 1; ring
      _ ≤ 2 ^ ((num.log2 : ℤ) - den.log2 + 1) * den := by gcongr
  have digits : (num.log2 : ℤ) - den.log2 - 53 + 53 = num.log2 - den.log2 := by ring
  have fits := lt_scaled_iff num hd ((num.log2 : ℤ) - den.log2 - 53 + 53)
  -- the logarithms leave a factor of four, and one comparison halves it
  by_cases h : (num : ℚ) / den < 2 ^ ((num.log2 : ℤ) - den.log2 - 53 + 53)
  · refine ⟨(num.log2 : ℤ) - den.log2 - 53, ?_, h, ?_⟩
    · rwa [show (num.log2 : ℤ) - den.log2 - 53 + 52 = num.log2 - den.log2 - 1 by ring]
    · simp only [gridExponent, if_pos (fits.mpr h)]
  · refine ⟨(num.log2 : ℤ) - den.log2 - 53 + 1, ?_, ?_, ?_⟩
    · rw [add_assoc]
      exact not_lt.mp h
    · rwa [show (num.log2 : ℤ) - den.log2 - 53 + 1 + 53 = num.log2 - den.log2 + 1 by ring]
    · simp only [gridExponent, if_neg (fits.not.mpr h)]

/-! ### The nearest integer -/

/-- What lies half a unit around an integer at most is rounded to it, half a unit away only to an
even one. -/
structure Around (q : ℕ) (w : ℚ) : Prop where
  low : (q : ℚ) - 1 / 2 ≤ w
  high : w ≤ q + 1 / 2
  odd : q % 2 = 1 → (q : ℚ) - 1 / 2 < w ∧ w < q + 1 / 2

theorem divNearest_of_around {num den q : ℕ} (pos : 0 < den) (around : Around q ((num : ℚ) / den)) :
    divNearest num den = q := by
  have posQ : (0 : ℚ) < den := Nat.cast_pos.mpr pos
  -- the bounds, as whole numbers of half a denominator
  have low : 2 * (q * den) ≤ 2 * num + den := by
    have h := (le_div_iff₀ posQ).mp around.low
    have : (2 * (q * den) : ℚ) ≤ 2 * num + den := by linarith
    exact_mod_cast this
  have high : 2 * num ≤ 2 * (q * den) + den := by
    have h := (div_le_iff₀ posQ).mp around.high
    have : (2 * num : ℚ) ≤ 2 * (q * den) + den := by linarith
    exact_mod_cast this
  have odd : q % 2 = 1 → 2 * (q * den) < 2 * num + den ∧ 2 * num < 2 * (q * den) + den := by
    intro h
    have h₁ := (lt_div_iff₀ posQ).mp (around.odd h).1
    have h₂ := (div_lt_iff₀ posQ).mp (around.odd h).2
    have h₁' : (2 * (q * den) : ℚ) < 2 * num + den := by linarith
    have h₂' : (2 * num : ℚ) < 2 * (q * den) + den := by linarith
    exact ⟨by exact_mod_cast h₁', by exact_mod_cast h₂'⟩
  rcases Nat.lt_or_ge num (q * den) with below | above
  · rw [divNearest_eq_iff below]
    omega
  · have quotient : num / den = q := by
      refine Nat.div_eq_of_lt_le above ?_
      rw [Nat.succ_mul]
      omega
    have rest : num % den = num - q * den := by
      have parts := Nat.div_add_mod num den
      rw [quotient, Nat.mul_comm] at parts
      omega
    unfold divNearest
    simp only [quotient, rest]
    split_ifs <;> omega

/-- Scaling is rounding another quotient. -/
theorem scaleNearest_eq (num : ℕ) {den : ℕ} (pos : 0 < den) (k : ℤ) :
    ∃ n d : ℕ, 0 < d ∧ scaleNearest num den k = divNearest n d ∧
      (n : ℚ) / d = (num : ℚ) / den / 2 ^ k := by
  unfold scaleNearest
  split
  · case isTrue neg =>
    obtain ⟨n, rfl⟩ : ∃ n : ℕ, k = -n := ⟨(-k).toNat, by omega⟩
    refine ⟨_, _, pos, rfl, ?_⟩
    rw [neg_neg, Int.toNat_natCast, zpow_neg, zpow_natCast, div_inv_eq_mul]
    push_cast
    ring
  · case isFalse nonneg =>
    obtain ⟨n, rfl⟩ : ∃ n : ℕ, k = n := ⟨k.toNat, by omega⟩
    refine ⟨_, _, Nat.mul_pos pos (Nat.two_pow_pos _), rfl, ?_⟩
    rw [Int.toNat_natCast, zpow_natCast, div_div]
    push_cast
    ring

theorem scaleNearest_of_around {num den q : ℕ} (pos : 0 < den) {k : ℤ}
    (around : Around q ((num : ℚ) / den / 2 ^ k)) : scaleNearest num den k = q := by
  obtain ⟨n, d, hd, scaled, same⟩ := scaleNearest_eq num pos k
  rw [scaled]
  exact divNearest_of_around hd (same ▸ around)

theorem scaleNearest_le {num den q : ℕ} (pos : 0 < den) {k : ℤ} (h : (num : ℚ) / den / 2 ^ k ≤ q) :
    scaleNearest num den k ≤ q := by
  obtain ⟨n, d, hd, scaled, same⟩ := scaleNearest_eq num pos k
  rw [← same, div_le_iff₀ (Nat.cast_pos.mpr hd)] at h
  rw [scaled]
  exact divNearest_le hd (by exact_mod_cast h)

theorem le_scaleNearest {num den q : ℕ} (pos : 0 < den) {k : ℤ} (h : q ≤ (num : ℚ) / den / 2 ^ k) :
    q ≤ scaleNearest num den k := by
  obtain ⟨n, d, hd, scaled, same⟩ := scaleNearest_eq num pos k
  rw [← same, le_div_iff₀ (Nat.cast_pos.mpr hd)] at h
  rw [scaled]
  exact le_divNearest hd (by exact_mod_cast h)

theorem scaleNearest_mono {num den num' den' : ℕ} (pos : 0 < den) (pos' : 0 < den') (k : ℤ)
    (h : (num : ℚ) / den ≤ (num' : ℚ) / den') :
    scaleNearest num den k ≤ scaleNearest num' den' k := by
  obtain ⟨n, d, hd, scaled, same⟩ := scaleNearest_eq num pos k
  obtain ⟨n', d', hd', scaled', same'⟩ := scaleNearest_eq num' pos' k
  have le : (n : ℚ) / d ≤ (n' : ℚ) / d' := by
    rw [same, same']
    gcongr
  rw [div_le_div_iff₀ (Nat.cast_pos.mpr hd) (Nat.cast_pos.mpr hd')] at le
  rw [scaled, scaled']
  exact divNearest_mono hd hd' (by exact_mod_cast le)

/-! ### The rationals around a double -/

/-- How far a double reaches below itself, in units of its last place.  Below a power of two the
next double is half as far. -/
def lowGap (b : Binary64) : ℚ :=
  if b.mantissa = 2 ^ 52 ∧ -1074 < b.exponent then 1 / 4 else 1 / 2

/-- The rationals that are nearer to a double than to all others; those halfway belong to an even
mantissa. -/
structure Rounds (b : Binary64) (v : ℚ) : Prop where
  low : (b.mantissa : ℚ) - b.lowGap ≤ v / 2 ^ b.exponent
  high : v / 2 ^ b.exponent ≤ b.mantissa + 1 / 2
  odd : b.mantissa % 2 = 1 → (b.mantissa : ℚ) - b.lowGap < v / 2 ^ b.exponent ∧
    v / 2 ^ b.exponent < b.mantissa + 1 / 2

theorem lowGap_le (b : Binary64) : b.lowGap ≤ 1 / 2 := by
  unfold lowGap
  split <;> norm_num

theorem lowGap_pos (b : Binary64) : 0 < b.lowGap := by
  unfold lowGap
  split <;> norm_num

variable {b : Binary64} {v : ℚ}

theorem Rounds.around (rounds : b.Rounds v) : Around b.mantissa (v / 2 ^ b.exponent) where
  low := by linarith [rounds.low, b.lowGap_le]
  high := rounds.high
  odd h := ⟨by linarith [(rounds.odd h).1, b.lowGap_le], (rounds.odd h).2⟩

theorem Rounds.pos (rounds : b.Rounds v) (some : 0 < b.mantissa) : 0 < v := by
  have one : (1 : ℚ) ≤ b.mantissa := by exact_mod_cast some
  have scaled : 0 < v / 2 ^ b.exponent := by linarith [rounds.low, b.lowGap_le]
  have unit : (0 : ℚ) < 2 ^ b.exponent := by positivity
  exact (div_pos_iff_of_pos_right unit).mp scaled

/-- The bits of a finite double above zero. -/
def magnitudeBits (b : Binary64) : ℕ := (b.exponent + 1074).toNat * 2 ^ 52 + b.mantissa

section

variable (regular : Regular b.mantissa b.exponent)

include regular in
/-- The grid around a rational is not coarser than the grid of the double that it is rounded to. -/
theorem Rounds.grid_le (rounds : b.Rounds v) {k : ℤ} (low : (2 : ℚ) ^ (k + 52) ≤ v) :
    k ≤ b.exponent := by
  have unit : (0 : ℚ) < 2 ^ b.exponent := by positivity
  have full : (b.mantissa : ℚ) + 1 ≤ 2 ^ 53 := by exact_mod_cast regular.below
  have below : (2 : ℚ) ^ (k + 52) < 2 ^ (b.exponent + 53) := by
    calc (2 : ℚ) ^ (k + 52) ≤ v := low
      _ ≤ (b.mantissa + 1 / 2) * 2 ^ b.exponent := (div_le_iff₀ unit).mp rounds.high
      _ < 2 ^ 53 * 2 ^ b.exponent := by gcongr; linarith
      _ = 2 ^ (b.exponent + 53) := by rw [zpow_add₀ (by norm_num)]; norm_num [mul_comm]
  have := (zpow_lt_zpow_iff_right₀ one_lt_two).mp below
  omega

include regular in
/-- A rational on a finer grid than its double lies just below a power of two, on the next grid
underneath. -/
theorem Rounds.below_power (rounds : b.Rounds v) {k : ℤ} (high : v < 2 ^ (k + 53))
    (finer : k < b.exponent) (inner : -1074 < b.exponent) :
    b.mantissa = 2 ^ 52 ∧ k = b.exponent - 1 ∧
      (2 : ℚ) ^ 52 - 1 / 4 ≤ v / 2 ^ b.exponent ∧ v / 2 ^ b.exponent < 2 ^ 52 := by
  have two : (1 : ℚ) < 2 := one_lt_two
  have unit : (0 : ℚ) < 2 ^ b.exponent := by positivity
  have whole : 2 ^ 52 ≤ b.mantissa := regular.full.resolve_right inner.ne'
  have less : v / 2 ^ b.exponent < 2 ^ 52 := by
    rw [div_lt_iff₀ unit]
    calc v < 2 ^ (k + 53) := high
      _ ≤ 2 ^ (52 + b.exponent) := zpow_le_zpow_right₀ two.le (by omega)
      _ = 2 ^ 52 * 2 ^ b.exponent := by rw [zpow_add₀ (by norm_num)]; norm_num
  have power : b.mantissa = 2 ^ 52 := by
    have low := rounds.around.low
    have bound : (b.mantissa : ℚ) < 2 ^ 52 + 1 := by linarith
    have : b.mantissa < 2 ^ 52 + 1 := by exact_mod_cast bound
    omega
  have above : (2 : ℚ) ^ 52 - 1 / 4 ≤ v / 2 ^ b.exponent := by
    have gap : b.lowGap = 1 / 4 := if_pos ⟨power, inner⟩
    have value : (b.mantissa : ℚ) = 2 ^ 52 := by rw [power]; norm_num
    rw [← value, ← gap]
    exact rounds.low
  have reached : (2 : ℚ) ^ (b.exponent + 51) < 2 ^ (k + 53) := by
    calc (2 : ℚ) ^ (b.exponent + 51) = 2 ^ 51 * 2 ^ b.exponent := by
          rw [zpow_add₀ (by norm_num)]; norm_num [mul_comm]
      _ ≤ (2 ^ 52 - 1 / 4) * 2 ^ b.exponent := by gcongr; norm_num
      _ ≤ v := (le_div_iff₀ unit).mp above
      _ < 2 ^ (k + 53) := high
  have next := (zpow_lt_zpow_iff_right₀ two).mp reached
  exact ⟨power, by omega, above, less⟩

/-- Just below a power of two, a rational is rounded to the power on the grid underneath. -/
theorem around_finer {e : ℤ} (low : (2 : ℚ) ^ 52 - 1 / 4 ≤ v / 2 ^ e) (high : v / 2 ^ e < 2 ^ 52) :
    Around (2 ^ 53) (v / 2 ^ (e - 1)) := by
  have twice : v / 2 ^ (e - 1) = 2 * (v / 2 ^ e) := by
    rw [zpow_sub₀ (by norm_num)]
    field_simp
  rw [twice]
  refine ⟨?_, ?_, by norm_num⟩
  · push_cast
    linarith
  · push_cast
    linarith

include regular in
/-- **The nearest double.**  A quotient around a double has its bits. -/
theorem nearestBits_of_rounds (top : b.exponent ≤ 971) (some : 0 < b.mantissa) {num den : ℕ}
    (hd : 0 < den) (rounds : b.Rounds ((num : ℚ) / den)) :
    nearestBits num den = b.magnitudeBits := by
  have hn : 0 < num := by
    have := (div_pos_iff_of_pos_right (Nat.cast_pos.mpr hd)).mp (rounds.pos some)
    exact_mod_cast this
  obtain ⟨k, low, high, grid⟩ := gridExponent_spec hn hd
  have atMost := rounds.grid_le regular low
  have least := regular.least
  have below := regular.below
  unfold nearestBits magnitudeBits
  simp only [if_neg hn.ne', grid]
  by_cases same : max k (-1074) = b.exponent
  · rw [same, scaleNearest_of_around hd rounds.around]
    omega
  · -- below a power of two, the grid of the double underneath
    obtain ⟨power, next, above, less⟩ := rounds.below_power regular high (by omega) (by omega)
    have finer : max k (-1074) = b.exponent - 1 := by omega
    rw [finer, scaleNearest_of_around hd (around_finer above less), power]
    omega

end

/-! ### Reading a double -/

/-- The parts of a finite double, put together again. -/
theorem bits_of_parts {bits : ℕ} (small : bits < 2 ^ 64) (h : ofBits? bits = some b) :
    Regular b.mantissa b.exponent ∧ b.exponent ≤ 971 ∧
      bits = if b.negative then 2 ^ 63 + b.magnitudeBits else b.magnitudeBits := by
  unfold ofBits? at h
  simp only at h
  split at h
  · cases h
  · case isFalse finite =>
    have sign : (bits / 2 ^ 63 % 2 == 1) = true ∧ 2 ^ 63 ≤ bits ∨ (bits / 2 ^ 63 % 2 == 1) = false ∧
        bits < 2 ^ 63 := by
      by_cases large : 2 ^ 63 ≤ bits
      · exact .inl ⟨by rw [beq_iff_eq]; omega, large⟩
      · exact .inr ⟨by rw [beq_eq_false_iff_ne]; omega, by omega⟩
    split at h
    · case isTrue zero =>
      cases h
      refine ⟨⟨by show bits % 2 ^ 52 < 2 ^ 53; omega, le_rfl, .inr rfl⟩, by norm_num, ?_⟩
      rcases sign with ⟨sign, large⟩
        | ⟨sign, large⟩ <;> simp only [sign, magnitudeBits] <;> simp <;> omega
    · case isFalse normal =>
      cases h
      refine ⟨⟨by show 2 ^ 52 + bits % 2 ^ 52 < 2 ^ 53; omega, ?_, .inl (by
        show 2 ^ 52 ≤ 2 ^ 52 + bits % 2 ^ 52; omega)⟩, ?_, ?_⟩
      · show -1074 ≤ ((bits / 2 ^ 52 % 2 ^ 11 : ℕ) : ℤ) - 1075
        omega
      · show ((bits / 2 ^ 52 % 2 ^ 11 : ℕ) : ℤ) - 1075 ≤ 971
        omega
      · rcases sign with ⟨sign, large⟩
          | ⟨sign, large⟩ <;> simp only [sign, magnitudeBits] <;> simp <;> omega

/-- **A quotient around a double is read as it**, under its sign. -/
theorem nearest_of_rounds {x : Float} (parts : ofFloat? x = some b) (some : 0 < b.mantissa)
    {num den : ℕ} (hd : 0 < den) (rounds : b.Rounds ((num : ℚ) / den)) :
    nearest b.negative num den = x := by
  obtain ⟨regular, top, bits⟩ := bits_of_parts x.toBits.toNat_lt parts
  rw [nearest, nearestBits_of_rounds regular top some hd rounds, ← bits, UInt64.ofNat_toNat,
    Float.ofBits_toBits]

/-- Zero is read as zero, under its sign. -/
theorem nearest_zero {x : Float} (parts : ofFloat? x = some b) (zero : b.mantissa = 0) (den : ℕ) :
    nearest b.negative 0 den = x := by
  obtain ⟨regular, top, bits⟩ := bits_of_parts x.toBits.toNat_lt parts
  have least : b.exponent = -1074 := regular.full.resolve_left (by omega)
  have none : b.magnitudeBits = 0 := by simp [magnitudeBits, zero, least]
  rw [none] at bits
  rw [nearest, nearestBits, if_pos rfl, ← bits, UInt64.ofNat_toNat, Float.ofBits_toBits]

end Binary64

end Annealing
