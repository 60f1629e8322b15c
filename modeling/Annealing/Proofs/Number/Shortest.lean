import Annealing.Proofs.Number.Nearest
import Annealing.Number.Shortest

/-!
# Number — the shortest decimal reads back

The decimal with the fewest digits is looked for on one grid of powers of ten after the other.  The
search may end without a hit, and then it would give zero; it does not, and what it gives is read as
the double it was looked for.

* `Binary64.guess_bounds`: the power of ten that is tried first is at most one too low and never too
  high.
* `Binary64.holds_iff`: the interval of a double on a grid holds the decimals that round to it.
* `Binary64.nearest?_isSome`: on a grid of seventeen digits there is one.
* `Binary64.ofDecimal_shortest`: so the shortest decimal reads back as the double, zeros behind its
  digits or not.

Numbers are rationals here, so that one inequality serves for exponents of either sign.
-/

namespace Annealing

/-- The number that a decimal stands for. -/
def Decimal.value (d : Decimal) : ℚ := d.digits * 10 ^ d.exponent

namespace Binary64

/-! ### Powers of ten around powers of two -/

/-- The power of ten that is tried first for a number between `2 ^ E` and `2 ^ (E + 1)`. -/
def guess (E : ℤ) : ℤ := Int.fdiv (E * 30103) 100000

theorem guess_table : (∀ n < 1024, 10 ^ (n * 30103 / 100000) ≤ 10 * 2 ^ n ∧ 2 * 2 ^ n ≤
    10 ^ (n * 30103 / 100000 + 2)) ∧
    ∀ n < 1075, 2 ^ n ≤ 10 ^ ((n * 30103 + 99999) / 100000 + 1) ∧
      10 ^ ((n * 30103 + 99999) / 100000) ≤ 50 * 2 ^ n := by
  decide +kernel

/-- The first try is never far off. -/
theorem guess_bounds {E : ℤ} (low : -1074 ≤ E) (high : E ≤ 1023) :
    (10 : ℚ) ^ (guess E - 1) ≤ 2 ^ E ∧ (2 : ℚ) ^ (E + 1) ≤ 10 ^ (guess E + 2) := by
  have two : (2 : ℚ) ≠ 0 := by norm_num
  have ten : (10 : ℚ) ≠ 0 := by norm_num
  -- the table is of naturals, so the sign of the exponent decides which half of it is read
  rcases Int.le_total 0 E with nonneg | neg
  · obtain ⟨n, rfl⟩ : ∃ n : ℕ, E = n := ⟨E.toNat, by omega⟩
    have value : guess n = ((n * 30103 / 100000 : ℕ) : ℤ) := by
      rw [guess, Int.fdiv_eq_ediv_of_nonneg _ (by norm_num)]
      omega
    obtain ⟨h₁, h₂⟩ := guess_table.1 n (by omega)
    have h₁ : (10 : ℚ) ^ (n * 30103 / 100000) ≤ 10 * 2 ^ n := by exact_mod_cast h₁
    have h₂ : (2 : ℚ) * 2 ^ n ≤ 10 ^ (n * 30103 / 100000 + 2) := by exact_mod_cast h₂
    rw [value]
    generalize n * 30103 / 100000 = g at h₁ h₂
    constructor
    · rw [zpow_sub₀ ten, zpow_natCast, zpow_natCast, zpow_one, div_le_iff₀ (by norm_num)]
      linarith
    · rw [zpow_add₀ two, zpow_natCast, zpow_one, mul_comm]
      exact_mod_cast h₂
  · obtain ⟨n, rfl⟩ : ∃ n : ℕ, E = -n := ⟨(-E).toNat, by omega⟩
    have value : guess (-n) = -(((n * 30103 + 99999) / 100000 : ℕ) : ℤ) := by
      rw [guess, Int.fdiv_eq_ediv_of_nonneg _ (by norm_num)]
      omega
    obtain ⟨h₁, h₂⟩ := guess_table.2 n (by omega)
    have h₁ : (2 : ℚ) ^ n ≤ 10 ^ ((n * 30103 + 99999) / 100000 + 1) := by exact_mod_cast h₁
    have h₂ : (10 : ℚ) ^ ((n * 30103 + 99999) / 100000) ≤ 50 * 2 ^ n := by exact_mod_cast h₂
    rw [value]
    generalize (n * 30103 + 99999) / 100000 = g at h₁ h₂
    constructor
    · rw [show -(g : ℤ) - 1 = -((g + 1 : ℕ) : ℤ) by push_cast; ring, zpow_neg, zpow_neg,
        zpow_natCast, zpow_natCast]
      exact inv_anti₀ (by positivity) h₁
    · rw [zpow_add₀ two, zpow_add₀ ten, zpow_neg, zpow_neg, zpow_natCast, zpow_natCast, zpow_one,
        inv_mul_le_iff₀ (by positivity)]
      have : (10 : ℚ) ^ g * 2 ≤ 2 ^ n * 10 ^ (2 : ℤ) := by norm_num; linarith
      calc (2 : ℚ) = 10 ^ g * 2 * (10 ^ g)⁻¹ := by field_simp
        _ ≤ 2 ^ n * 10 ^ (2 : ℤ) * (10 ^ g)⁻¹ := by gcongr
        _ = 2 ^ n * ((10 ^ g)⁻¹ * 10 ^ (2 : ℤ)) := by ring

/-! ### Intervals on grids of decimals -/

/-- The magnitude of a double. -/
def magnitude (b : Binary64) : ℚ := b.mantissa * 2 ^ b.exponent

/-- A quarter of the last place of a double. -/
theorem interval_ratio (b : Binary64) :
    0 < b.interval.num ∧ 0 < b.interval.den ∧
    (b.interval.num : ℚ) / b.interval.den = 2 ^ b.exponent / 4 := by
  have quarter : (2 : ℚ) ^ b.exponent / 4 = 2 ^ (b.exponent - 2) := by
    rw [zpow_sub₀ (by norm_num)]
    norm_num
  rw [quarter]
  unfold interval
  generalize b.exponent - 2 = q
  rcases lt_or_ge q 0 with neg | nonneg
  · obtain ⟨n, rfl⟩ : ∃ n : ℕ, q = -n := ⟨(-q).toNat, by omega⟩
    simp only [if_pos neg, neg_neg, Int.toNat_natCast, zpow_neg, zpow_natCast]
    exact ⟨one_pos, Nat.two_pow_pos n, by push_cast; rw [one_div]⟩
  · obtain ⟨n, rfl⟩ : ∃ n : ℕ, q = n := ⟨q.toNat, by omega⟩
    simp only [if_neg nonneg.not_gt, Int.toNat_natCast, zpow_natCast]
    exact ⟨Nat.two_pow_pos n, one_pos, by push_cast; rw [div_one]⟩

/-- A quarter of the last place of a double, in units of a grid. -/
theorem onGrid_ratio (b : Binary64) (p : ℤ) :
    0 < (b.interval.onGrid p).num ∧ 0 < (b.interval.onGrid p).den ∧
      ((b.interval.onGrid p).num : ℚ) / (b.interval.onGrid p).den =
        2 ^ b.exponent / 4 / 10 ^ p := by
  obtain ⟨numPos, denPos, ratio⟩ := b.interval_ratio
  rw [← ratio]
  unfold Interval.onGrid
  split
  · case isTrue neg =>
    obtain ⟨n, rfl⟩ : ∃ n : ℕ, p = -n := ⟨(-p).toNat, by omega⟩
    simp only [neg_neg, Int.toNat_natCast, zpow_neg, zpow_natCast]
    refine ⟨Nat.mul_pos numPos (Nat.pow_pos (by norm_num)), denPos, ?_⟩
    push_cast
    rw [div_inv_eq_mul]
    ring
  · case isFalse nonneg =>
    obtain ⟨n, rfl⟩ : ∃ n : ℕ, p = n := ⟨p.toNat, by omega⟩
    simp only [Int.toNat_natCast, zpow_natCast]
    refine ⟨numPos, Nat.mul_pos denPos (Nat.pow_pos (by norm_num)), ?_⟩
    push_cast
    rw [div_div]

theorem onGrid_same (I : Interval) (p : ℤ) :
    (I.onGrid p).low = I.low ∧ (I.onGrid p).value = I.value ∧ (I.onGrid p).high = I.high ∧
      (I.onGrid p).closed = I.closed := by
  unfold Interval.onGrid
  split <;> exact ⟨rfl, rfl, rfl, rfl⟩

/-- The ends of the interval of a double, in units of its last place. -/
theorem interval_ends {b : Binary64} (some : 0 < b.mantissa) :
    (b.interval.low : ℚ) = 4 * (b.mantissa - b.lowGap) ∧ (b.interval.value : ℚ) = 4 * b.mantissa ∧
      (b.interval.high : ℚ) = 4 * (b.mantissa + 1 / 2) := by
  refine ⟨?_, by simp [interval], by simp [interval]; ring⟩
  unfold interval lowGap
  by_cases narrow : b.mantissa = 2 ^ 52 ∧ -1074 < b.exponent
  · simp only [if_pos narrow]
    rw [Nat.cast_sub (by omega)]
    push_cast
    ring
  · simp only [if_neg narrow]
    rw [Nat.cast_sub (by omega)]
    push_cast
    ring

/-- An integer on a grid compares with an end of the interval as the decimal compares with the end
of the double. -/
theorem end_le_iff (b : Binary64) (p : ℤ) (d ends : ℕ) (w : ℚ) (hw : (ends : ℚ) = 4 * w) :
    (ends * (b.interval.onGrid p).num ≤ d * (b.interval.onGrid p).den ↔
      w ≤ d * 10 ^ p / 2 ^ b.exponent) ∧
      (d * (b.interval.onGrid p).den ≤ ends * (b.interval.onGrid p).num ↔
        d * 10 ^ p / 2 ^ b.exponent ≤ w) := by
  obtain ⟨numPos, denPos, ratio⟩ := onGrid_ratio b p
  have denPos : (0 : ℚ) < (b.interval.onGrid p).den := Nat.cast_pos.mpr denPos
  have unit : (0 : ℚ) < 2 ^ b.exponent := by positivity
  have grid : (0 : ℚ) < 10 ^ p := by positivity
  -- both sides are multiples of the same positive number
  have left : ((ends * (b.interval.onGrid p).num : ℕ) : ℚ) =
      w * ((b.interval.onGrid p).den * 2 ^ b.exponent / 10 ^ p) := by
    rw [div_eq_iff denPos.ne'] at ratio
    push_cast
    rw [hw, ratio]
    ring
  have right : ((d * (b.interval.onGrid p).den : ℕ) : ℚ) =
      d * 10 ^ p / 2 ^ b.exponent * ((b.interval.onGrid p).den * 2 ^ b.exponent / 10 ^ p) := by
    push_cast
    field_simp
  have factor : (0 : ℚ) < (b.interval.onGrid p).den * 2 ^ b.exponent / 10 ^ p := by positivity
  constructor
  · rw [← Nat.cast_le (α := ℚ), left, right, mul_le_mul_iff_left₀ factor]
  · rw [← Nat.cast_le (α := ℚ), left, right, mul_le_mul_iff_left₀ factor]

/-- **The interval of a double on a grid holds the decimals that round to it.** -/
theorem holds_iff {b : Binary64} (some : 0 < b.mantissa) (p : ℤ) (d : ℕ) :
    (b.interval.onGrid p).holds d = true ↔ b.Rounds (d * 10 ^ p) := by
  obtain ⟨low, -, high⟩ := interval_ends some
  obtain ⟨sameLow, -, sameHigh, sameClosed⟩ := onGrid_same b.interval p
  obtain ⟨atLeast, atLeast'⟩ := end_le_iff b p d _ _ low
  obtain ⟨atMost', atMost⟩ := end_le_iff b p d _ _ high
  have closed : b.interval.closed = (b.mantissa % 2 == 0) := rfl
  unfold Interval.holds
  rw [sameLow, sameHigh, sameClosed, closed]
  rcases Nat.mod_two_eq_zero_or_one b.mantissa with even | odd
  · simp only [even, beq_self_eq_true, if_true, Bool.and_eq_true, decide_eq_true_eq]
    rw [atLeast, atMost]
    exact ⟨fun ⟨h₁, h₂⟩ => ⟨h₁, h₂, by omega⟩, fun h => ⟨h.low, h.high⟩⟩
  · simp only [odd, Nat.reduceBEq, Bool.false_eq_true, if_false, Bool.and_eq_true,
      decide_eq_true_eq]
    rw [← not_le, ← not_le, atLeast', atMost', not_le, not_le]
    exact ⟨fun h => ⟨h.1.le, h.2.le, fun _ => h⟩, fun h => h.odd odd⟩

/-! ### The first try and the tries behind it -/

/-- Whether a double lies below a power of ten. -/
theorem below_grid_iff {b : Binary64} (some : 0 < b.mantissa) (p : ℤ) :
    (b.interval.onGrid p).value * (b.interval.onGrid p).num < (b.interval.onGrid p).den ↔
    b.magnitude < 10 ^ p := by
  obtain ⟨-, value, -⟩ := interval_ends some
  obtain ⟨-, sameValue, -, -⟩ := onGrid_same b.interval p
  have h := (end_le_iff b p 1 _ _ value).2
  rw [sameValue, ← not_le, ← not_le, not_iff_not]
  have unit : (0 : ℚ) < 2 ^ b.exponent := by positivity
  rw [Nat.cast_one, one_mul, one_mul, div_le_iff₀ unit] at h
  exact h

theorem magnitude_spec {b : Binary64} (some : 0 < b.mantissa) (tries : ℕ) (first : ℤ)
    (low : (10 : ℚ) ^ (first - 1) ≤ b.magnitude) (high : b.magnitude < 10 ^ (first + tries)) :
    (10 : ℚ) ^ (b.interval.magnitude tries first - 1) ≤ b.magnitude ∧
      b.magnitude < 10 ^ b.interval.magnitude tries first := by
  induction tries generalizing first with
  | zero =>
      rw [Nat.cast_zero, add_zero] at high
      exact ⟨low, high⟩
  | succ tries ih =>
      unfold Interval.magnitude
      simp only [below_grid_iff some]
      split
      · case isTrue below => exact ⟨low, below⟩
      · case isFalse above =>
        refine ih (first + 1) ?_ ?_
        · rw [add_sub_cancel_right]
          exact not_lt.mp above
        · convert high using 2
          push_cast
          ring

/-- The power of two at or below a double. -/
theorem magnitude_log2 {b : Binary64} (some : 0 < b.mantissa) :
    (2 : ℚ) ^ ((b.mantissa.log2 : ℤ) + b.exponent) ≤ b.magnitude ∧
      b.magnitude < 2 ^ ((b.mantissa.log2 : ℤ) + b.exponent + 1) := by
  obtain ⟨low, high⟩ := log2_bounds some
  have two : (2 : ℚ) ≠ 0 := by norm_num
  have unit : (0 : ℚ) < 2 ^ b.exponent := by positivity
  unfold magnitude
  constructor
  · rw [zpow_add₀ two]
    gcongr
  · rw [add_right_comm, zpow_add₀ two]
    gcongr

/-- The least power of ten above a double. -/
def point (b : Binary64) : ℤ := b.interval.magnitude 3 (guess (b.mantissa.log2 + b.exponent))

theorem point_bounds {b : Binary64} (regular : Regular b.mantissa b.exponent)
    (top : b.exponent ≤ 971) (some : 0 < b.mantissa) : (10 : ℚ) ^ (b.point - 1) ≤ b.magnitude ∧
    b.magnitude < 10 ^ b.point := by
  have digits : b.mantissa.log2 < 53 := (Nat.log2_lt some.ne').mpr regular.below
  have least := regular.least
  obtain ⟨low, high⟩ := magnitude_log2 some
  obtain ⟨guessLow, guessHigh⟩ :=
    guess_bounds (E := b.mantissa.log2 + b.exponent) (by omega) (by omega)
  refine magnitude_spec some 3 _ (guessLow.trans low) ((high.trans_le guessHigh).trans_le ?_)
  exact zpow_le_zpow_right₀ (by norm_num) (by push_cast; linarith)

/-! ### Seventeen digits -/

/-- The neighbours of a double on a grid of decimals. -/
theorem floor_bounds {b : Binary64} (some : 0 < b.mantissa) (p : ℤ) :
    let q := (b.interval.onGrid p).value * (b.interval.onGrid p).num / (b.interval.onGrid p).den
    (q : ℚ) * 10 ^ p ≤ b.magnitude ∧ b.magnitude < ((q + 1 : ℕ) : ℚ) * 10 ^ p := by
  intro q
  obtain ⟨-, denPos, -⟩ := onGrid_ratio b p
  obtain ⟨-, value, -⟩ := interval_ends some
  obtain ⟨-, sameValue, -, -⟩ := onGrid_same b.interval p
  have unit : (0 : ℚ) < 2 ^ b.exponent := by positivity
  have low : q * (b.interval.onGrid p).den ≤ b.interval.value * (b.interval.onGrid p).num := by
    rw [← sameValue]
    exact Nat.div_mul_le_self _ _
  have high :
      ¬ (q + 1) * (b.interval.onGrid p).den ≤ b.interval.value * (b.interval.onGrid p).num := by
    rw [not_le, ← sameValue]
    exact (Nat.div_lt_iff_lt_mul denPos).mp (Nat.lt_succ_self q)
  rw [(end_le_iff b p _ _ _ value).2, div_le_iff₀ unit] at low high
  exact ⟨low, not_le.mp high⟩

/-- A step of a grid of seventeen digits that starts below the interval of a double ends below the
end of the interval. -/
theorem step_lt_high {b : Binary64} (below : (b.mantissa : ℚ) + 1 ≤ 2 ^ 53) {step w : ℚ}
    (fine : step * 10 ^ 16 ≤ b.mantissa) (outside : w ≤ b.mantissa - b.lowGap) :
    w + step < b.mantissa + 1 / 2 := by
  unfold lowGap at outside
  split at outside
  · case isTrue narrow =>
    have value : (b.mantissa : ℚ) = 2 ^ 52 := by rw [narrow.1]; norm_num
    rw [value] at fine outside ⊢
    norm_num at fine outside ⊢
    linarith
  · case isFalse wide =>
    norm_num at below fine outside ⊢
    linarith

/-- **A grid of seventeen digits is fine enough.**  Its unit is less than the width of the interval,
so one of the neighbours of the double lies inside. -/
theorem nearest?_isSome {b : Binary64} (regular : Regular b.mantissa b.exponent)
    (some : 0 < b.mantissa) {p : ℤ} (fine : (10 : ℚ) ^ p * 10 ^ 16 ≤ b.magnitude) :
    (b.interval.onGrid p).nearest?.isSome := by
  obtain ⟨low, high⟩ := floor_bounds some p
  unfold Interval.nearest?
  simp only at low high ⊢
  generalize (b.interval.onGrid p).value * (b.interval.onGrid p).num /
    (b.interval.onGrid p).den = q at low high ⊢
  have unit : (0 : ℚ) < 2 ^ b.exponent := by positivity
  have below : (b.mantissa : ℚ) + 1 ≤ 2 ^ 53 := by exact_mod_cast regular.below
  -- the grid and its two neighbours of the double, in units of the last place
  have fine : (10 : ℚ) ^ p / 2 ^ b.exponent * 10 ^ 16 ≤ b.mantissa := by
    rw [div_mul_eq_mul_div, div_le_iff₀ unit]
    exact fine
  have low : (q : ℚ) * 10 ^ p / 2 ^ b.exponent ≤ b.mantissa := (div_le_iff₀ unit).mpr low
  have high : (b.mantissa : ℚ) < ((q + 1 : ℕ) : ℚ) * 10 ^ p / 2 ^ b.exponent :=
    (lt_div_iff₀ unit).mpr high
  have next : ((q + 1 : ℕ) : ℚ) * 10 ^ p / 2 ^ b.exponent =
      q * 10 ^ p / 2 ^ b.exponent + 10 ^ p / 2 ^ b.exponent := by
    push_cast
    ring
  have gap := b.lowGap_pos
  suffices h : (b.interval.onGrid p).holds q = true ∨ (b.interval.onGrid p).holds (q + 1) = true by
    rcases h with h | h
    · cases h' : (b.interval.onGrid p).holds (q + 1) <;> simp [h]
    · cases h' : (b.interval.onGrid p).holds q <;> simp [h]
  rw [holds_iff some, holds_iff some]
  rcases lt_or_ge ((b.mantissa : ℚ) - b.lowGap) (q * 10 ^ p / 2 ^ b.exponent) with inside | outside
  · exact .inl ⟨inside.le, by linarith, fun _ => ⟨inside, by linarith⟩⟩
  · have reach := step_lt_high below fine outside
    rw [← next] at reach
    exact .inr ⟨by linarith, reach.le, fun _ => ⟨by linarith, reach⟩⟩

/-- What is found on a grid lies in the interval, and next to the double. -/
theorem nearest?_spec {I : Interval} {d : ℕ} (h : I.nearest? = some d) :
    I.holds d = true ∧ d ≤ I.value * I.num / I.den + 1 := by
  unfold Interval.nearest? at h
  simp only at h
  split at h
  · cases h
  · case h_2 first _ =>
    cases h
    exact ⟨first, Nat.le_succ _⟩
  · case h_3 second =>
    cases h
    exact ⟨second, le_rfl⟩
  · case h_4 first second =>
    cases h
    refine ⟨?_, divNearest_le_succ⟩
    unfold divNearest
    dsimp only
    split_ifs <;> assumption

theorem shortestFrom_spec (I : Interval) (k : ℤ) (more n : ℕ)
    (last : (I.onGrid (k - (n + more : ℕ))).nearest?.isSome) :
    ∃ j ≤ n + more, n ≤ j ∧ (shortestFrom I k more n).exponent = k - j ∧
      (I.onGrid (k - j)).nearest? = some (shortestFrom I k more n).digits := by
  induction more generalizing n with
  | zero =>
      obtain ⟨d, hd⟩ := Option.isSome_iff_exists.mp last
      rw [Nat.add_zero] at hd
      refine ⟨n, le_rfl, le_rfl, rfl, ?_⟩
      simp only [shortestFrom, hd, Option.getD_some]
  | succ more ih =>
      unfold shortestFrom
      cases found : (I.onGrid (k - n)).nearest? with
      | some d => exact ⟨n, by omega, le_rfl, rfl, found⟩
      | none =>
          obtain ⟨j, hj, hj', exponent, digits⟩ := ih (n + 1) (by convert last using 4; omega)
          exact ⟨j, by omega, by omega, exponent, digits⟩

/-- Below a power of ten, the integer on a grid underneath a double has no more digits than the
grid. -/
theorem floor_lt {b : Binary64} (some : 0 < b.mantissa) {k : ℤ}
    (high : b.magnitude < 10 ^ k) (n : ℕ) :
    (b.interval.onGrid (k - n)).value * (b.interval.onGrid (k - n)).num /
      (b.interval.onGrid (k - n)).den < 10 ^ n := by
  obtain ⟨floor, -⟩ := floor_bounds some (k - n)
  generalize (b.interval.onGrid (k - n)).value * (b.interval.onGrid (k - n)).num /
    (b.interval.onGrid (k - n)).den = q at floor ⊢
  have grid : (0 : ℚ) < 10 ^ (k - n) := by positivity
  have less : (q : ℚ) * 10 ^ (k - n) < 10 ^ n * 10 ^ (k - n) := by
    calc (q : ℚ) * 10 ^ (k - n) ≤ b.magnitude := floor
      _ < 10 ^ k := high
      _ = 10 ^ ((n : ℤ) + (k - n)) := by rw [add_sub_cancel]
      _ = 10 ^ n * 10 ^ (k - n) := by rw [zpow_add₀ (by norm_num), zpow_natCast]
  have : (q : ℚ) < 10 ^ n := (mul_lt_mul_iff_left₀ grid).mp less
  exact_mod_cast this

/-- **The shortest decimal of a double rounds to it**, and has no more than seventeen digits before
rounding up. -/
theorem shortest_spec {b : Binary64} (regular : Regular b.mantissa b.exponent)
    (top : b.exponent ≤ 971) (some : 0 < b.mantissa) : b.Rounds b.shortest.value ∧
    0 < b.shortest.digits ∧ b.shortest.digits ≤ 10 ^ 17 := by
  obtain ⟨low, high⟩ := point_bounds regular top some
  have shortest : b.shortest = shortestFrom b.interval b.point 16 1 := by
    unfold shortest point guess
    rw [if_neg some.ne']
  -- the search has a hit on its last grid, if not before
  have last : (b.interval.onGrid (b.point - (1 + 16 : ℕ))).nearest?.isSome := by
    refine nearest?_isSome regular some (le_trans (le_of_eq ?_) low)
    rw [← zpow_natCast, ← zpow_add₀ (by norm_num)]
    congr 1
    push_cast
    ring
  obtain ⟨j, few, -, exponent, digits⟩ := shortestFrom_spec b.interval b.point 16 1 last
  rw [← shortest] at exponent digits
  obtain ⟨holds, near⟩ := nearest?_spec digits
  have rounds : b.Rounds b.shortest.value := by
    unfold Decimal.value
    rw [exponent]
    exact (holds_iff some _ _).mp holds
  have value := rounds.pos some
  refine ⟨rounds, ?_, near.trans ?_⟩
  · by_contra none
    have zero : b.shortest.digits = 0 := by omega
    simp [Decimal.value, zero] at value
  · exact (floor_lt some high j).trans_le (Nat.pow_le_pow_right (by decide) few)

/-! ### Reading a decimal -/

theorem powers_apart : 2 ^ 1024 < 10 ^ 400 ∧ 2 ^ 1075 < 10 ^ 449 := by decide +kernel

/-- Doubles lie between these powers of two. -/
theorem Rounds.bounds {b : Binary64} {v : ℚ} (rounds : b.Rounds v)
    (regular : Regular b.mantissa b.exponent) (top : b.exponent ≤ 971) (some : 0 < b.mantissa) :
    (2 : ℚ) ^ (-1075 : ℤ) ≤ v ∧ v < 2 ^ (1024 : ℤ) := by
  have unit : (0 : ℚ) < 2 ^ b.exponent := by positivity
  have one : (1 : ℚ) ≤ b.mantissa := by exact_mod_cast some
  have below : (b.mantissa : ℚ) + 1 ≤ 2 ^ 53 := by exact_mod_cast regular.below
  have low : 1 / 2 ≤ v / 2 ^ b.exponent := by linarith [rounds.around.low]
  have high : v / 2 ^ b.exponent < 2 ^ 53 := by linarith [rounds.high]
  rw [le_div_iff₀ unit] at low
  rw [div_lt_iff₀ unit] at high
  constructor
  · calc (2 : ℚ) ^ (-1075 : ℤ) = 1 / 2 * 2 ^ (-1074 : ℤ) := by
          rw [show (-1075 : ℤ) = -1 + -1074 by norm_num, zpow_add₀ (by norm_num), zpow_neg_one,
            one_div]
      _ ≤ 1 / 2 * 2 ^ b.exponent := by gcongr; exacts [by norm_num, regular.least]
      _ ≤ v := low
  · calc v < 2 ^ 53 * 2 ^ b.exponent := high
      _ ≤ 2 ^ 53 * 2 ^ (971 : ℤ) := by gcongr; norm_num
      _ = 2 ^ (1024 : ℤ) := by
        rw [show (1024 : ℤ) = 53 + 971 by norm_num, zpow_add₀ (by norm_num)]; rfl

/-- The estimate of a decimal's size does not cut off what lies between these powers of two. -/
theorem estimate_bounds {digits : ℕ} {exponent : ℤ} (pos : 0 < digits) (short : digits.log2 < 1024)
    (low : (2 : ℚ) ^ (-1075 : ℤ) ≤ digits * 10 ^ exponent)
    (high : (digits : ℚ) * 10 ^ exponent < 2 ^ (1024 : ℤ)) :
    -450 ≤ exponent + guess digits.log2 ∧ exponent + guess digits.log2 ≤ 400 := by
  have ten : (10 : ℚ) ≠ 0 := by norm_num
  have grid : (0 : ℚ) < 10 ^ exponent := by positivity
  obtain ⟨digitsLow, digitsHigh⟩ := log2_bounds pos
  obtain ⟨guessLow, guessHigh⟩ := guess_bounds (E := digits.log2) (by omega) (by omega)
  constructor
  · by_contra small
    have apart : (2 : ℚ) ^ (-1075 : ℤ) < 10 ^ (-449 : ℤ) := by
      calc (2 : ℚ) ^ (-1075 : ℤ) ≤ digits * 10 ^ exponent := low
        _ < 10 ^ (guess digits.log2 + 2) * 10 ^ exponent := by
          gcongr; exact digitsHigh.trans_le guessHigh
        _ = 10 ^ (guess digits.log2 + 2 + exponent) := (zpow_add₀ ten _ _).symm
        _ ≤ 10 ^ (-449 : ℤ) := zpow_le_zpow_right₀ (by norm_num) (by omega)
    rw [zpow_neg, zpow_neg, zpow_ofNat, zpow_ofNat, inv_lt_inv₀ (by positivity) (by positivity)]
      at apart
    exact powers_apart.2.not_gt (by exact_mod_cast apart)
  · by_contra large
    have apart : (10 : ℚ) ^ (400 : ℤ) < 2 ^ (1024 : ℤ) := by
      calc (10 : ℚ) ^ (400 : ℤ) ≤ 10 ^ (guess digits.log2 - 1 + exponent) :=
            zpow_le_zpow_right₀ (by norm_num) (by omega)
        _ = 10 ^ (guess digits.log2 - 1) * 10 ^ exponent := zpow_add₀ ten _ _
        _ ≤ digits * 10 ^ exponent := by gcongr; exact guessLow.trans digitsLow
        _ < 2 ^ (1024 : ℤ) := high
    rw [zpow_ofNat, zpow_ofNat] at apart
    exact powers_apart.1.not_gt (by exact_mod_cast apart)

/-- **A decimal that rounds to a double is read as it**, under its sign.  A decimal that rounds to a
double is not cut off, as long as it has no more digits than the estimate of its size is good
for. -/
theorem ofDecimal_of_rounds {x : Float} {b : Binary64} (parts : ofFloat? x = some b)
    (some : 0 < b.mantissa) {digits : ℕ} {exponent : ℤ} (short : digits.log2 < 1024)
    (rounds : b.Rounds (digits * 10 ^ exponent)) :
    ofDecimal b.negative digits exponent = x := by
  obtain ⟨regular, top, -⟩ := bits_of_parts x.toBits.toNat_lt parts
  obtain ⟨low, high⟩ := rounds.bounds regular top some
  have value := rounds.pos some
  have digitsPos : 0 < digits := by
    by_contra none
    have zero : digits = 0 := by omega
    simp [zero] at value
  have estimate : (digits.log2 : ℤ) * 30103 / 100000 = guess digits.log2 := by
    rw [guess, Int.fdiv_eq_ediv_of_nonneg _ (by norm_num)]
  obtain ⟨notSmall, notLarge⟩ := estimate_bounds digitsPos short low high
  unfold ofDecimal
  simp only [if_neg digitsPos.ne', estimate, if_neg notLarge.not_gt, if_neg notSmall.not_gt]
  split
  · case isTrue neg =>
    obtain ⟨n, rfl⟩ : ∃ n : ℕ, exponent = -n := ⟨(-exponent).toNat, by omega⟩
    rw [neg_neg, Int.toNat_natCast]
    refine nearest_of_rounds parts some (Nat.pow_pos (by norm_num)) ?_
    rw [zpow_neg, zpow_natCast, ← div_eq_mul_inv] at rounds
    exact_mod_cast rounds
  · case isFalse nonneg =>
    obtain ⟨n, rfl⟩ : ∃ n : ℕ, exponent = n := ⟨exponent.toNat, by omega⟩
    rw [Int.toNat_natCast]
    refine nearest_of_rounds parts some one_pos ?_
    rw [zpow_natCast] at rounds
    rw [Nat.cast_one, div_one]
    exact_mod_cast rounds

/-- Zero is read as zero, under its sign, whatever its exponent. -/
theorem ofDecimal_zero {x : Float} {b : Binary64} (parts : ofFloat? x = some b)
    (zero : b.mantissa = 0) (exponent : ℤ) :
    ofDecimal b.negative 0 exponent = x := by
  rw [ofDecimal, if_pos rfl]
  exact nearest_zero parts zero 1

/-- **The shortest decimal of a double reads back as the double**, however many zeros are put behind
its digits or taken from there. -/
theorem ofDecimal_shortest {x : Float} {b : Binary64} (parts : ofFloat? x = some b) {digits : ℕ}
    {exponent : ℤ} (short : digits.log2 < 1024)
    (same : (digits : ℚ) * 10 ^ exponent = b.shortest.value) :
    ofDecimal b.negative digits exponent = x := by
  obtain ⟨regular, top, -⟩ := bits_of_parts x.toBits.toNat_lt parts
  rcases Nat.eq_zero_or_pos b.mantissa with zero | some
  · have none : (digits : ℚ) * 10 ^ exponent = 0 := by
      rw [same, shortest, if_pos zero]
      simp [Decimal.value]
    have grid : (10 : ℚ) ^ exponent ≠ 0 := by positivity
    have none : digits = 0 := by exact_mod_cast (mul_eq_zero.mp none).resolve_right grid
    rw [none]
    exact ofDecimal_zero parts zero exponent
  · refine ofDecimal_of_rounds parts some short ?_
    rw [same]
    exact (shortest_spec regular top some).1

end Binary64

end Annealing
