import Annealing.Proofs.Number.Quotient
import Mathlib.Analysis.SpecialFunctions.Log.Basic
import Annealing.Number.Power

/-!
# Number — logarithms of doubles

The natural logarithm of doubles is not defined in this library: programs use the one that their
platform comes with.  What is asked of it is little.  On doubles above zero and at most one, it is
finite and off by at most half of the exact logarithm (`IsLogarithm`); any platform promises far
more.

The exact logarithm of the smallest double is no less than `-1074`, and that of the largest double
below one is no more than `-2 ^ -53`.  So a logarithm has the right sign, is nowhere near the
largest doubles, and is not zero below one: a quotient of two logarithms is a number of moderate
size (`IsLogarithm.quotient_isFinite`).

* `exactLog_ge`, `exactLog_below_one`: the bounds on exact logarithms.
* `isLogarithm_nearestLog`: the double nearest to the exact logarithm is one.
-/

namespace Annealing

open Float.Model UnpackedFloat

/-! ### Powers of two -/

/-- A power of two that is no smaller than the smallest normal double is a double, under either
sign. -/
theorem exists_power (s : Sign) {k : ℤ} (least : -1022 ≤ k) (top : k ≤ 1023) :
    ∃ x : Float, x.isFinite = true ∧ exactValue x = underSign s (2 ^ k) := by
  have pos : 0 < 2 ^ 52 := by decide
  have regular : Regular (2 ^ 52) (k - 52) := ⟨by decide, by omega, .inl le_rfl⟩
  let x : Float := .ofModel (.pack (.finite s (2 ^ 52) (k - 52) pos))
  have unpacked : x.toModel.unpack = .finite s (2 ^ 52) (k - 52) pos :=
    unpack_pack pos regular (by omega)
  refine ⟨x, ?_, ?_⟩
  · change x.toModel.unpack.isFinite = true
    rw [unpacked]
    rfl
  · have value : ((2 ^ 52 : ℕ) : ℚ) * 2 ^ (k - 52) = 2 ^ k := by
      rw [Nat.cast_pow, Nat.cast_ofNat, ← zpow_natCast, ← zpow_add₀ two_ne_zero]
      congr 1
      omega
    rw [exactValue, unpacked, unpackedValue, value]

/-! ### Exact logarithms -/

/-- The exact logarithm of a double. -/
noncomputable def exactLog (x : Float) : ℝ := Real.log (exactValue x)

section

variable {x : Float} (hx : IsPositive x)

include hx

theorem exactLog_eq : exactLog x = Real.log (units x / oneUnits) := by
  rw [exactLog, exactValue_eq_units (.inl hx)]
  push_cast
  rfl

theorem exactLog_nonpos (atMost : x ≤ 1) : exactLog x ≤ 0 := by
  have value : exactValue x ≤ 1 := exactValue_one ▸ (le_iff_exactValue hx.isFinite rfl).mp atMost
  exact Real.log_nonpos (by exact_mod_cast (exactValue_pos hx).le) (by exact_mod_cast value)

/-- No double has a logarithm below that of the smallest one. -/
theorem exactLog_ge : -(oneExponent : ℝ) ≤ exactLog x := by
  have one : (0 : ℝ) < oneUnits := Nat.cast_pos.mpr oneUnits_pos
  have some : (1 : ℝ) ≤ units x := by exact_mod_cast hx.units_pos
  have two : Real.log 2 ≤ 1 := by
    have below := Real.log_le_sub_one_of_pos (two_pos : (0 : ℝ) < 2)
    linarith
  calc -(oneExponent : ℝ) ≤ -(oneExponent * Real.log 2) := by
        have many : (0 : ℝ) ≤ oneExponent := Nat.cast_nonneg _
        nlinarith
    _ = Real.log (1 / oneUnits) := by
        rw [one_div, Real.log_inv, oneUnits, Nat.cast_pow, Nat.cast_ofNat, Real.log_pow]
    _ ≤ Real.log (units x / oneUnits) := Real.log_le_log (by positivity) (by gcongr)
    _ = exactLog x := (exactLog_eq hx).symm

/-- The logarithms of doubles below one stay away from zero. -/
theorem exactLog_below_one (below : x < 1) : 2 ^ 53 * exactLog x ≤ -1 := by
  have one : (0 : ℝ) < oneUnits := Nat.cast_pos.mpr oneUnits_pos
  have less : units x ≤ oneUnits := (units_lt_of_lt_one hx below).le
  have lack : (oneUnits : ℝ) ≤ 2 ^ 53 * (oneUnits - units x) := by
    have lack := lack_of_between hx.above_zero below
    rw [← Nat.cast_sub less]
    exact_mod_cast lack
  have tangent : exactLog x ≤ units x / oneUnits - 1 := by
    rw [exactLog_eq hx]
    exact Real.log_le_sub_one_of_pos (div_pos (Nat.cast_pos.mpr hx.units_pos) one)
  have share : 1 ≤ 2 ^ 53 * (1 - (units x : ℝ) / oneUnits) := by
    rw [← div_self one.ne', ← sub_div, ← mul_div_assoc]
    gcongr
  linarith

end

/-! ### Logarithms -/

/-- A logarithm of doubles.  On those above zero and at most one it is finite, and off by at most
half of the exact logarithm; what platforms document is an error of few units in the last place. -/
structure IsLogarithm (log : Float → Float) : Prop where
  finite : ∀ {x}, IsPositive x → x ≤ 1 → (log x).isFinite = true
  close : ∀ {x}, IsPositive x → x ≤ 1 → |(exactValue (log x) : ℝ) - exactLog x| ≤ |exactLog x| / 2

namespace IsLogarithm

section

variable {log : Float → Float} (is : IsLogarithm log) {x y : Float} (hx : IsPositive x)

include is hx

/-- A logarithm lies between a half and three halves of the exact one. -/
theorem bounds (atMost : x ≤ 1) :
    3 / 2 * exactLog x ≤ exactValue (log x) ∧ exactValue (log x) ≤ exactLog x / 2 := by
  have close := is.close hx atMost
  rw [abs_of_nonpos (exactLog_nonpos hx atMost), abs_le] at close
  constructor <;> linarith [close.1, close.2]

theorem nonpos (atMost : x ≤ 1) : exactValue (log x) ≤ 0 := by
  have high := (is.bounds hx atMost).2
  have exact := exactLog_nonpos hx atMost
  exact_mod_cast (by linarith : (exactValue (log x) : ℝ) ≤ 0)

theorem ge (atMost : x ≤ 1) : -(2 ^ 11) ≤ exactValue (log x) := by
  have low := (is.bounds hx atMost).1
  have exact := exactLog_ge hx
  have least : (oneExponent : ℝ) = 1074 := by rw [oneExponent_eq, Nat.cast_ofNat]
  rw [least] at exact
  have bound : (-(2 ^ 11) : ℝ) ≤ exactValue (log x) := by linarith
  exact_mod_cast bound

theorem below_one (below : x < 1) : exactValue (log x) ≤ -1 / 2 ^ 54 := by
  have high := (is.bounds hx (le_of_below below)).2
  have exact := exactLog_below_one hx below
  have bound : (exactValue (log x) : ℝ) ≤ -1 / 2 ^ 54 := by linarith
  exact_mod_cast bound

theorem neg (below : x < 1) : exactValue (log x) < 0 :=
  (is.below_one hx below).trans_lt (by norm_num)

/-- The logarithm of a double below one divides. -/
theorem divides (below : x < 1) : (log x == 0) = false :=
  beq_zero_eq_false (is.finite hx (le_of_below below)) (is.neg hx below).ne

variable (hy : IsPositive y) (atMost : x ≤ 1) (below : y < 1)

include hy atMost below

/-- The exact quotient of two logarithms is at or above zero, and far below the largest double. -/
theorem quotient_bounds : 0 ≤ exactValue (log x) / exactValue (log y) ∧
    exactValue (log x) / exactValue (log y) ≤ 2 ^ (65 : ℤ) := by
  have low := is.ge hx atMost
  have high := is.below_one hy below
  refine ⟨div_nonneg_of_nonpos (is.nonpos hx atMost) (is.neg hy below).le, ?_⟩
  rw [div_le_iff_of_neg (is.neg hy below), show (2 : ℚ) ^ (65 : ℤ) = 2 ^ 65 by norm_cast]
  linarith

/-- **The quotient of two logarithms is a finite double at or above zero.** -/
theorem quotient_isFinite : (log x / log y).isFinite = true ∧ 0 ≤ exactValue (log x / log y) := by
  have hy' := is.finite hy (le_of_below below)
  have nearest := isNearest_quotient (is.finite hx atMost) hy' (is.neg hy below).ne
  obtain ⟨low, high⟩ := is.quotient_bounds hx hy atMost below
  obtain ⟨top, finite, value⟩ := exists_power .positive (k := 65) (by decide) (by decide)
  have nonneg : 0 ≤ log x / log y := isNearest_zero_float.le nearest low
  have atMost' : log x / log y ≤ top :=
    nearest.le (isNearest_value finite) (high.trans_eq value.symm)
  have finite' := isFinite_of_between rfl finite nonneg atMost'
  exact ⟨finite', (le_iff_exactValue rfl finite').mp nonneg⟩

end

end IsLogarithm

/-! ### The nearest double to the exact logarithm -/

instance finite_doubles : Finite Float :=
  Finite.of_injective (fun x => x.toBits.toFin) fun _ _ h =>
    Float.toBits_inj.mp (UInt64.toFin_inj.mp h)

theorem exists_nearest (r : ℝ) : ∃ x : Float, x.isFinite = true ∧
    ∀ y : Float, y.isFinite = true → |(exactValue x : ℝ) - r| ≤ |(exactValue y : ℝ) - r| :=
  Set.exists_min_image {x : Float | x.isFinite = true}
    (fun x => |(exactValue x : ℝ) - r|) (Set.toFinite _) ⟨0, rfl⟩

/-- A finite double that no other one is nearer to the number than. -/
noncomputable def nearestTo (r : ℝ) : Float := (exists_nearest r).choose

theorem nearestTo_finite (r : ℝ) : (nearestTo r).isFinite = true := (exists_nearest r).choose_spec.1

theorem nearestTo_le (r : ℝ) {y : Float} (hy : y.isFinite = true) :
    |(exactValue (nearestTo r) : ℝ) - r| ≤ |(exactValue y : ℝ) - r| :=
  (exists_nearest r).choose_spec.2 y hy

/-- The nearest double to a number below zero of moderate size is off by at most half of it. -/
theorem nearestTo_close {a : ℝ} (low : 2 ^ (-1022 : ℤ) ≤ a) (high : a < 2 ^ (1024 : ℤ)) :
    |(exactValue (nearestTo (-a)) : ℝ) - -a| ≤ a / 2 := by
  have pos : 0 < a := lt_of_lt_of_le (by positivity) low
  have below : (2 : ℝ) ^ Int.log 2 a ≤ a := Int.zpow_log_le_self Nat.one_lt_two pos
  have above : a < (2 : ℝ) ^ (Int.log 2 a + 1) := Int.lt_zpow_succ_log_self Nat.one_lt_two a
  have least : -1022 ≤ Int.log 2 a := (Int.zpow_le_iff_le_log Nat.one_lt_two pos).mp low
  have top : Int.log 2 a < 1024 := (Int.lt_zpow_iff_log_lt Nat.one_lt_two pos).mp high
  obtain ⟨y, finite, value⟩ := exists_power .negative least (by omega)
  refine (nearestTo_le (-a) finite).trans ?_
  have value : (exactValue y : ℝ) = -2 ^ Int.log 2 a := by
    rw [value, underSign]
    push_cast
    rfl
  rw [zpow_add_one₀ two_ne_zero] at above
  rw [value, abs_le]
  constructor <;> linarith

/-- The double nearest to the exact logarithm, which is what platforms aim at. -/
noncomputable def nearestLog (x : Float) : Float := nearestTo (exactLog x)

theorem isLogarithm_nearestLog : IsLogarithm nearestLog where
  finite _ _ := nearestTo_finite _
  close {x} hx atMost := by
    rw [nearestLog]
    by_cases below : x < 1
    · have high := exactLog_below_one hx below
      have low := exactLog_ge hx
      rw [oneExponent_eq] at low
      have small : (2 : ℝ) ^ (-1022 : ℤ) ≤ 1 / 2 ^ 53 := by
        rw [one_div, ← zpow_natCast, ← zpow_neg]
        exact zpow_le_zpow_right₀ one_le_two (by decide)
      have large : (1074 : ℝ) < 2 ^ (1024 : ℤ) :=
        calc (1074 : ℝ) < 2 ^ (11 : ℤ) := by norm_num
          _ ≤ 2 ^ (1024 : ℤ) := zpow_le_zpow_right₀ one_le_two (by decide)
      have moderate : -exactLog x ≤ 1074 := by
        push_cast at low
        linarith
      have close := @nearestTo_close (-exactLog x) (by linarith) (moderate.trans_lt large)
      rwa [neg_neg, ← abs_of_neg (by linarith)] at close
    · -- one, whose logarithm is zero
      have value : exactValue x = 1 := by
        refine le_antisymm (exactValue_one ▸ (le_iff_exactValue hx.isFinite rfl).mp atMost) ?_
        refine exactValue_one ▸ (le_iff_exactValue rfl hx.isFinite).mp ?_
        exact le_iff_not_lt.mpr ⟨⟨rfl, number_of_isFinite hx.isFinite⟩, below⟩
      have none : exactLog x = 0 := by rw [exactLog, value, Rat.cast_one, Real.log_one]
      have exact := nearestTo_le (exactLog x) (y := 0) rfl
      have zero : exactValue 0 = 0 := rfl
      simpa [none, zero] using exact

end Annealing
