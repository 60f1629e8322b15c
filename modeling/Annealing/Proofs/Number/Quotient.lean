import Annealing.Proofs.Number.Operations
import Mathlib.Data.Rat.Floor
import Annealing.Number.Power

/-!
# Number — quotients at the edges of the doubles

A quotient of doubles can leave the range of doubles below and above.  Below, it is rounded to zero
exactly if it is at most half the smallest double (`quotient_nonpos_iff`); on integers, this is a
comparison of units (`Vanishes`).  Above, it is finite as long as it is at most some finite double
(`isFinite_of_between`), and what is finite has a least integer that is not below it
(`ceiling_of_isFinite`).

* `Binary64.nearestBits_eq_zero_iff`: the quotients that are rounded to zero.
* `exactValue_eq_units`: what a double at or above zero is worth, by its units.
-/

namespace Annealing

open Float.Model UnpackedFloat

namespace Binary64

/-! ### Quotients rounded to zero -/

theorem divNearest_eq_zero_iff {num den : ℕ} (hd : 0 < den) :
    divNearest num den = 0 ↔ 2 * num ≤ den := by
  rcases Nat.lt_or_ge num den with below | above
  · rw [divNearest, Nat.div_eq_of_lt below, Nat.mod_eq_of_lt below]
    rcases lt_trichotomy (2 * num) den with less | half | more
    · exact iff_of_true (if_pos less) less.le
    · rw [if_neg half.not_lt, if_neg half.not_gt]
      exact iff_of_true rfl half.le
    · rw [if_neg more.not_gt, if_pos more]
      exact iff_of_false Nat.one_ne_zero more.not_ge
  · have one : 1 ≤ divNearest num den := le_divNearest hd (by omega)
    omega

/-- The smallest double, by the units of one. -/
theorem smallest_eq : (2 : ℚ) ^ (-1074 : ℤ) = 1 / oneUnits := by
  have form := form_eq 1 (le_refl (-1074))
  rwa [Nat.cast_one, one_mul, formUnits, Nat.one_mul, show (-1074 + 1074 : ℤ).toNat = 0 from rfl,
    pow_zero, Nat.cast_one] at form

/-- On the grid of the smallest double, a quotient is rounded as its units are. -/
theorem scaleNearest_smallest (num : ℕ) {den : ℕ} (hd : 0 < den) :
    scaleNearest num den (-1074) = divNearest (num * oneUnits) den := by
  obtain ⟨n, d, hd', scaled, same⟩ := scaleNearest_eq num hd (-1074)
  rw [scaled]
  refine divNearest_congr hd hd' ?_
  rw [same, smallest_eq, div_div_eq_mul_div, div_one, Nat.cast_mul]
  ring

/-- **A quotient is rounded to zero exactly if it is at most half the smallest double.** -/
theorem nearestBits_eq_zero_iff {num den : ℕ} (hd : 0 < den) :
    nearestBits num den = 0 ↔ 2 * oneUnits * num ≤ den := by
  rcases Nat.eq_zero_or_pos num with rfl | hn
  · exact iff_of_true rfl (by omega)
  obtain ⟨k, low, -, grid⟩ := gridExponent_spec hn hd
  simp only [nearestBits, if_neg hn.ne', grid]
  by_cases bottom : k ≤ -1074
  · rw [max_eq_right bottom, scaleNearest_smallest num hd]
    have half := @divNearest_eq_zero_iff (num * oneUnits) den hd
    rw [show 2 * oneUnits * num = 2 * (num * oneUnits) by ring, ← half]
    omega
  · -- on a coarser grid, the quotient has all its digits, and is above the smallest double
    have digits := full_le_scaleNearest hd low
    have above : den ≤ num * oneUnits := by
      have one : (0 : ℚ) < oneUnits := Nat.cast_pos.mpr oneUnits_pos
      have unit : (1 : ℚ) / oneUnits ≤ (num : ℚ) / den :=
        calc (1 : ℚ) / oneUnits = 2 ^ (-1074 : ℤ) := smallest_eq.symm
          _ ≤ 2 ^ (k + 52) := zpow_le_zpow_right₀ one_le_two (by omega)
          _ ≤ (num : ℚ) / den := low
      rw [div_le_div_iff₀ one (Nat.cast_pos.mpr hd), one_mul] at unit
      exact_mod_cast unit
    have more : 0 < num * oneUnits := Nat.mul_pos hn oneUnits_pos
    rw [max_eq_left (by omega), show 2 * oneUnits * num = 2 * (num * oneUnits) by ring]
    omega

end Binary64

open Binary64

/-! ### Values -/

/-- What a double at or above zero is worth, by its units. -/
theorem exactValue_eq_units {x : Float} (hx : IsNonnegative x) :
    exactValue x = units x / oneUnits := by
  rcases hx with ⟨m, e, pos, hx⟩ | ⟨s, hx⟩
  · have regular := (ofParts_regular ((unpack_eq _).symm.trans hx)).1
    rw [exactValue, units, hx]
    exact form_eq m regular.least
  · rw [units_zero hx, exactValue, hx, Nat.cast_zero, zero_div]
    rfl

theorem exactValue_one : exactValue 1 = 1 := by
  have one : (oneUnits : ℚ) ≠ 0 := Nat.cast_ne_zero.mpr oneUnits_pos.ne'
  have value : units 1 = oneUnits := formUnits_one
  rw [exactValue_eq_units isNonnegative_one, value, div_self one]

theorem IsNonnegative.isFinite {x : Float} (hx : IsNonnegative x) : x.isFinite = true := by
  rcases hx with positive | ⟨s, hx⟩
  · exact IsPositive.isFinite positive
  · change x.toModel.unpack.isFinite = true
    rw [hx]
    rfl

/-- The quotient of the units is the exact quotient. -/
theorem units_div_units {x y : Float} (hx : IsNonnegative x) (hy : IsNonnegative y) :
    (units x : ℚ) / units y = exactValue x / exactValue y := by
  have one : (oneUnits : ℚ) ≠ 0 := Nat.cast_ne_zero.mpr oneUnits_pos.ne'
  rw [exactValue_eq_units hx, exactValue_eq_units hy, div_div_div_cancel_right₀ one]

/-- A finite double that is not worth zero is not equal to zero. -/
theorem beq_zero_eq_false {x : Float} (hx : x.isFinite = true) (nonzero : exactValue x ≠ 0) :
    (x == 0) = false := by
  change (x.toModel.unpack.compare (.zero .positive) == some .eq) = false
  rw [exactValue] at nonzero
  rcases finite_cases hx with ⟨s, hx⟩ | ⟨s, m, e, pos, hx, -, -⟩ <;> rw [hx] at nonzero ⊢
  · exact absurd rfl nonzero
  · cases s <;> rfl

/-! ### Between the edges -/

/-- What lies between finite doubles is finite. -/
theorem isFinite_of_between {a b x : Float} (ha : a.isFinite = true) (hb : b.isFinite = true)
    (low : a ≤ x) (high : x ≤ b) :
    x.isFinite = true := by
  obtain ⟨⟨-, hx⟩, -⟩ := le_iff_not_lt.mp low
  rcases finite_or_infinite hx with finite | ⟨s, infinite⟩
  · exact finite
  · -- neither infinity has a finite double on its outer side
    have positive := (sign_of_infinite ha infinite).1 low
    have negative := (sign_of_infinite hb infinite).2 high
    rw [positive] at negative
    cases negative

/-! ### The lower edge -/

/-- The quotient of `x` by `y` is at most half the smallest double. -/
def Vanishes (x y : Float) : Prop := 2 * oneUnits * units x ≤ units y

instance (x y : Float) : Decidable (Vanishes x y) := inferInstanceAs (Decidable (_ ≤ _))

/-- **Which quotients of doubles are rounded to zero.** -/
theorem quotient_nonpos_iff {x y : Float} (hx : IsNonnegative x) (hy : IsPositive y) :
    x / y ≤ 0 ↔ Vanishes x y := by
  have nearest := isNearest_div hx.isFinite hy
  have bits : signedBits (x / y) = nearestBits (units x) (units y) :=
    nearest.bits.trans (roundedBits_of_nonneg hy.units_pos (units_div_units hx (.inl hy)))
  have zero : signedBits 0 = 0 := rfl
  rw [le_iff_signedBits nearest.number rfl, bits, zero, Vanishes,
    ← nearestBits_eq_zero_iff hy.units_pos]
  omega

/-- A quotient by a greater double that is not rounded to zero lies above zero and is at most
one. -/
theorem quotient_of_not_vanishes {x y : Float} (hx : IsNonnegative x) (hy : IsPositive y)
    (less : x < y) (stays : ¬ Vanishes x y) : IsPositive (x / y) ∧ x / y ≤ 1 := by
  have nearest := isNearest_div hx.isFinite hy
  have atMost : x / y ≤ 1 := by
    have value : exactValue x / exactValue y ≤ exactValue 1 := by
      rw [exactValue_one, div_le_one (exactValue_pos hy)]
      exact (le_iff_exactValue hx.isFinite hy.isFinite).mp (le_of_below less)
    exact nearest.le (isNearest_value rfl) value
  have above : 0 < x / y := by
    by_contra none
    exact stays ((quotient_nonpos_iff hx hy).mp (le_iff_not_lt.mpr ⟨⟨nearest.number, rfl⟩, none⟩))
  have finite := isFinite_of_between rfl rfl (le_of_below above) atMost
  exact ⟨isPositive_of_lt finite (.inr ⟨.positive, rfl⟩) above, atMost⟩

/-! ### Least integers -/

/-- The ratio of the parts of a finite double is its value. -/
theorem ratio_of_parts {x : Float} {b : Binary64} (hx : x.isFinite = true)
    (parts : ofFloat? x = some b) :
    (b.signed b.ratio.1 : ℚ) / b.ratio.2 = exactValue x := by
  have one : (oneUnits : ℚ) ≠ 0 := Nat.cast_ne_zero.mpr oneUnits_pos.ne'
  have pos : (b.ratio.2 : ℚ) ≠ 0 := Nat.cast_ne_zero.mpr (ratio_pos b).ne'
  obtain ⟨n, place, value⟩ := place_of_exactValue hx
  obtain ⟨n', place', same⟩ := parts_units (isRegular_unpack x) ((ofFloat_eq x).symm.trans parts)
  obtain rfl : n = n' := congrArg Prod.snd (toLex.injective (place.symm.trans place'))
  rw [value, div_eq_div_iff pos one]
  exact_mod_cast same

/-- **A finite double has a least integer that is not below it.** -/
theorem ceiling_of_isFinite {x : Float} (hx : x.isFinite = true) :
    ∃ b, ofFloat? x = some b ∧ b.ceiling = ⌈exactValue x⌉ := by
  have opened : ∃ b, ofFloat? x = some b := by
    rcases finite_cases hx with ⟨s, hx⟩
      | ⟨s, m, e, pos, hx, -, -⟩ <;> exact ⟨_, (ofFloat_eq x).trans (congrArg _ hx)⟩
  obtain ⟨b, parts⟩ := opened
  refine ⟨b, parts, ?_⟩
  rw [← ratio_of_parts hx parts, Rat.ceil_intCast_div_natCast, Binary64.ceiling, zero_sub, zero_sub]

end Annealing
