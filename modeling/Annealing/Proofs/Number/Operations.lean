import Annealing.Proofs.Number.Signed
import Annealing.Number.Power

/-!
# Number — differences and quotients of doubles

An operation on doubles works out the exact result, rounds it and packs it.  What comes out is the
double nearest to the exact result, also where the result lies beyond all doubles and is packed as
infinity.  Nearest doubles keep the order of rationals, so differences and quotients of doubles are
monotone wherever exact ones are.

* `Closes.isNearest`, `StandsFor.isNearest`: what rounding comes to is packed as the nearest double.
* `isNearest_sub`, `isNearest_quotient`: differences and quotients of finite doubles are the nearest
  doubles to the exact ones.
-/

namespace Annealing

open Float.Model UnpackedFloat Binary64

/-- What an unpacked double is once it has been packed. -/
def packed (a : UnpackedFloat) : UnpackedFloat :=
  UnpackedFloat.unpack Format.binary64 (UnpackedFloat.pack Format.binary64 a)

/-! ### Packing -/

theorem isNearest_packed_zero (s : Sign) : IsNearest (packed (.zero s)) 0 := by
  rw [packed, unpack_pack_zero]
  exact isNearest_zero s

/-- A form in which a double is kept is packed as it is. -/
theorem isNearest_packed_form {m : ℕ} {e : ℤ} (s : Sign) (pos : 0 < m)
    (regular : Regular m e) (top : e ≤ 971) :
    IsNearest (packed (.finite s m e pos)) (underSign s (m * 2 ^ e)) := by
  rw [packed, unpack_pack pos regular top]
  exact isNearest_form s pos regular top

/-- A form beyond all doubles is packed as infinity. -/
theorem packed_of_large {s : Sign} {m : ℕ} {e : ℤ} (pos : 0 < m) (large : 971 < e) :
    packed (.finite s m e pos) = .infinity s := by
  rw [packed, pack_eq, if_pos (by omega)]
  cases s <;> rfl

section

variable {n : ℕ} {k : ℤ} (atMost : n ≤ 2 ^ 53) (least : -1074 ≤ k) (full : 2 ^ 52 ≤ n ∨ k = -1074)

include atMost least full

/-- A mantissa that rounding has filled up by one carries into the exponent, and the bits are the
same. -/
theorem magnitudeBits_carried {m : ℕ} {e : ℤ} (regular : Regular m e)
    (value : formUnits m e = formUnits n k) :
    magnitudeBits ⟨false, m, e⟩ = (k + 1074).toNat * 2 ^ 52 + n := by
  have unique : ∀ {m' : ℕ} {e' : ℤ}, Regular m' e' → formUnits m' e' = formUnits n k →
      magnitudeBits ⟨false, m, e⟩ = magnitudeBits ⟨false, m', e'⟩ := fun {m' e'} regular' value' =>
    magnitudeBits_congr (b := ⟨false, m, e⟩)
      (c := ⟨false, m', e'⟩) regular regular' (value.trans value'.symm)
  rcases atMost.lt_or_eq with below | rfl
  · exact unique ⟨below, least, full⟩ rfl
  · have next : (k + 1 + 1074).toNat = (k + 1074).toNat + 1 := by omega
    have carried : formUnits (2 ^ 52) (k + 1) = formUnits (2 ^ 53) k := by
      rw [formUnits, formUnits, next]
      ring
    rw [unique ⟨by decide, by omega, .inl le_rfl⟩ carried]
    show (k + 1 + 1074).toNat * 2 ^ 52 + 2 ^ 52 = _
    omega

/-- **What rounding comes to is packed with the bits of its magnitude**, or those of infinity. -/
theorem Closes.bits {s : Sign} {a : UnpackedFloat} (closes : Closes s n k a) :
    (packed a).isNaN = false ∧
    unpackedBits (packed a) =
      s.apply (min ((k + 1074).toNat * 2 ^ 52 + n) (2047 * 2 ^ 52) : ℕ) := by
  cases closes with
  | zero none =>
      have bottom : k = -1074 := full.resolve_left (by omega)
      rw [packed, unpack_pack_zero, none, bottom]
      exact ⟨rfl, by cases s <;> rfl⟩
  | @finite m e pos regular value =>
      have bits := magnitudeBits_carried atMost least full regular value
      by_cases top : e ≤ 971
      · have small := magnitudeBits_lt regular top
        rw [bits] at small
        have kept : packed (.finite s m e pos) = .finite s m e pos := unpack_pack pos regular top
        rw [kept, min_eq_left small.le, ← bits]
        exact ⟨rfl, rfl⟩
      · have large : 2047 * 2 ^ 52 ≤ (k + 1074).toNat * 2 ^ 52 + n := by
          have whole := regular.full.resolve_right (by omega)
          rw [← bits]
          show 2047 * 2 ^ 52 ≤ (e + 1074).toNat * 2 ^ 52 + m
          omega
        rw [packed_of_large pos (not_le.mp top), min_eq_right large]
        exact ⟨rfl, rfl⟩

end

/-! ### Rounding -/

/-- The grid on which a quotient is rounded, told by the digits of its whole part. -/
theorem gridExponent_eq {num den n d : ℕ} {e : ℤ} (hd : 0 < den) (hn' : 0 < n) (hd' : 0 < d)
    (below : e ≤ roundingExponent (num / den) e) (same : (n : ℚ) / d = (num : ℚ) / den * 2 ^ e) :
    gridExponent n d = roundingExponent (num / den) e := by
  obtain ⟨k, low, high, grid⟩ := gridExponent_spec hn' hd'
  have pos : (0 : ℚ) < den := Nat.cast_pos.mpr hd
  have unit : (0 : ℚ) < 2 ^ e := by positivity
  have above : (num : ℚ) / den < 2 ^ (((num / den).log2 : ℤ) + 1) := by
    have digits : num < 2 ^ ((num / den).log2 + 1) * den :=
      (Nat.div_lt_iff_lt_mul hd).mp Nat.lt_log2_self
    rw [div_lt_iff₀ pos]
    exact_mod_cast digits
  have less : k + 52 < (num / den).log2 + 1 + e := by
    refine (zpow_lt_zpow_iff_right₀ (one_lt_two : (1 : ℚ) < 2)).mp (low.trans_lt ?_)
    rw [same, zpow_add₀ two_ne_zero]
    gcongr
  rw [grid, roundingExponent]
  rw [roundingExponent] at below
  rcases Nat.eq_zero_or_pos (num / den) with none | some
  · rw [none, Nat.log2_zero] at below less ⊢
    omega
  · have more : (num / den).log2 + e < k + 53 := by
      refine (zpow_lt_zpow_iff_right₀ (one_lt_two : (1 : ℚ) < 2)).mp (lt_of_le_of_lt ?_ high)
      have digits : 2 ^ (num / den).log2 * den ≤ num :=
        (Nat.le_div_iff_mul_le hd).mp (Nat.log2_self_le some.ne')
      have digits' : (2 : ℚ) ^ ((num / den).log2 : ℤ) ≤ (num : ℚ) / den := by
        rw [le_div_iff₀ pos]
        exact_mod_cast digits
      rw [same, zpow_add₀ two_ne_zero]
      gcongr
    omega

/-- The nearest integer depends on the rational only. -/
theorem divNearest_congr {num den n d : ℕ} (hd : 0 < den) (hd' : 0 < d)
    (same : (n : ℚ) / d = (num : ℚ) / den) :
    divNearest n d = divNearest num den := by
  rw [div_eq_div_iff (Nat.cast_ne_zero.mpr hd'.ne') (Nat.cast_ne_zero.mpr hd.ne')] at same
  have crossed : n * den = num * d := by exact_mod_cast same
  exact le_antisymm (divNearest_mono hd' hd crossed.le) (divNearest_mono hd hd' crossed.ge)

/-- The signed bits of a quotient, told by the mantissa that it is rounded to. -/
theorem roundedBits_of_quotient {num den : ℕ} {e : ℤ} (hn : 0 < num) (hd : 0 < den)
    (below : e ≤ roundingExponent (num / den) e) :
    roundedBits ((num : ℚ) / den * 2 ^ e) =
      (min ((roundingExponent (num / den) e + 1074).toNat * 2 ^ 52 +
      divNearest num (den * 2 ^ (roundingExponent (num / den) e - e).toNat))
    (2047 * 2 ^ 52) : ℕ) := by
  have positive : (0 : ℚ) < (num : ℚ) / den * 2 ^ e := by positivity
  generalize value : (num : ℚ) / den * 2 ^ e = v at positive
  have ratio := natAbs_div_den positive.le
  have hn' : 0 < v.num.natAbs := Int.natAbs_pos.mpr (Rat.num_pos.mpr positive).ne'
  have grid := gridExponent_eq hd hn' v.den_pos below (ratio.trans value.symm)
  have digits : scaleNearest v.num.natAbs v.den (roundingExponent (num / den) e) =
      divNearest num (den * 2 ^ (roundingExponent (num / den) e - e).toNat) := by
    obtain ⟨n, d, hd', scaled, same⟩ :=
      scaleNearest_eq v.num.natAbs v.den_pos (roundingExponent (num / den) e)
    rw [scaled]
    refine divNearest_congr (Nat.mul_pos hd (Nat.two_pow_pos _)) hd' ?_
    have exponent : e - roundingExponent (num / den) e =
        -((roundingExponent (num / den) e - e).toNat : ℤ) := by omega
    rw [same, ratio, ← value, mul_div_assoc, ← zpow_sub₀ two_ne_zero, exponent, zpow_neg,
      zpow_natCast, Nat.cast_mul, Nat.cast_pow, Nat.cast_ofNat, ← div_eq_mul_inv, div_div]
  simp only [roundedBits_of_nonneg v.den_pos ratio, nearestBits, if_neg hn'.ne', grid, digits]

/-- **What rounding comes to is packed as the nearest double.** -/
theorem StandsFor.isNearest {m num den : ℕ} {accuracy : Accuracy} {e : ℤ}
    (stands : StandsFor (.ofMantissaAndAccuracy m accuracy) num den) (hn : 0 < num) (hd : 0 < den)
    (below : e ≤ roundingExponent (num / den) e) (s : Sign) :
    IsNearest (packed (roundWithAccuracy Format.binary64 s m e accuracy))
      (underSign s ((num : ℚ) / den * 2 ^ e)) := by
  obtain ⟨atMost, full⟩ := nearest_bounds hd below
  have least : -1074 ≤ roundingExponent (num / den) e := le_max_right _ _
  obtain ⟨number, bits⟩ := (stands.roundWithAccuracy_closes hd below s).bits atMost least full
  exact ⟨number, by rw [bits, roundedBits_underSign, roundedBits_of_quotient hn hd below]⟩

/-- Rounding a whole mantissa of any exponent. -/
theorem isNearest_round (s : Sign) {m : ℕ} (pos : 0 < m) (e : ℤ) :
    IsNearest (packed (UnpackedFloat.round Format.binary64 s m e)) (underSign s (m * 2 ^ e)) := by
  obtain ⟨k, hk⟩ : ∃ k, k = (e - roundingExponent m e).toNat := ⟨_, rfl⟩
  have unfolded : UnpackedFloat.round Format.binary64 s m e =
      roundWithAccuracy Format.binary64 s (m * 2 ^ k) (e - k) .exact := by
    rw [← Nat.shiftLeft_eq, hk]
    rfl
  have exponent : e - k ≤ roundingExponent (m * 2 ^ k / 1) (e - k) := by
    have least : -1074 ≤ roundingExponent m e := le_max_right _ _
    rw [Nat.div_one, roundingExponent, log2_mul_two_pow pos]
    rw [roundingExponent] at hk
    omega
  have nearest := (StandsFor.exact (m * 2 ^ k)).isNearest
    (Nat.mul_pos pos (Nat.two_pow_pos k)) Nat.one_pos exponent s
  have value : ((m * 2 ^ k : ℕ) : ℚ) / (1 : ℕ) * 2 ^ (e - k) = m * 2 ^ e := by
    rw [Nat.cast_one, div_one, Nat.cast_mul, Nat.cast_pow, Nat.cast_ofNat, mul_assoc,
      ← zpow_natCast, ← zpow_add₀ two_ne_zero]
    congr 2
    omega
  rwa [unfolded, ← value]

/-- Rounding a signed mantissa. -/
theorem isNearest_normalize (m : ℤ) (e : ℤ) (s : Sign) :
    IsNearest (packed (UnpackedFloat.normalize Format.binary64 m e s)) (m * 2 ^ e) := by
  rw [UnpackedFloat.normalize]
  rcases lt_trichotomy m 0 with below | rfl | above
  · have value : underSign .negative ((-m).toNat * 2 ^ e) = m * 2 ^ e := by
      have magnitude : (((-m).toNat : ℤ) : ℚ) = -m := by
        rw [Int.toNat_of_nonneg (by omega), Int.cast_neg]
      rw [Int.cast_natCast] at magnitude
      rw [underSign, magnitude, neg_mul, neg_neg]
    rw [Int.compare_eq_lt.mpr below, ← value]
    exact isNearest_round .negative (by omega) e
  · rw [Int.compare_eq_eq.mpr rfl, Int.cast_zero, zero_mul]
    exact isNearest_packed_zero s
  · have value : underSign .positive (m.toNat * 2 ^ e) = m * 2 ^ e := by
      have magnitude : ((m.toNat : ℤ) : ℚ) = m := by rw [Int.toNat_of_nonneg above.le]
      rw [Int.cast_natCast] at magnitude
      rw [underSign, magnitude]
    rw [Int.compare_eq_gt.mpr above, ← value]
    exact isNearest_round .positive (by omega) e

/-! ### Differences -/

/-- A mantissa brought to a lesser exponent. -/
theorem value_of_lesser_exponent (s : Sign) (m : ℕ) {e target : ℤ} (lesser : target ≤ e) :
    ((s.apply (decreaseExponent m e target).1 : ℤ) : ℚ) * 2 ^ target = underSign s (m * 2 ^ e) := by
  obtain ⟨k, hk⟩ : ∃ k : ℕ, e = target + k := ⟨(e - target).toNat, by omega⟩
  have shifted : (decreaseExponent m e target).1 = m * 2 ^ k := by
    have width : (e - target).toNat = k := by omega
    show m <<< (e - target).toNat = m * 2 ^ k
    rw [width, Nat.shiftLeft_eq]
  have value : ((m * 2 ^ k : ℕ) : ℚ) * 2 ^ target = m * 2 ^ e := by
    rw [hk, Nat.cast_mul, Nat.cast_pow, Nat.cast_ofNat, zpow_add₀ two_ne_zero, zpow_natCast]
    ring
  rw [shifted]
  cases s with
  | negative => rw [Sign.apply, underSign, Int.cast_neg, Int.cast_natCast, neg_mul, value]
  | positive => rw [Sign.apply, underSign, Int.cast_natCast, value]

/-- **The difference of finite doubles is the nearest double to the exact one.** -/
theorem isNearest_sub {x y : Float} (hx : x.isFinite = true) (hy : y.isFinite = true) :
    IsNearest (x - y).toModel.unpack (exactValue x - exactValue y) := by
  have unfolded : (x - y).toModel.unpack =
      packed (UnpackedFloat.sub Format.binary64 x.toModel.unpack y.toModel.unpack) := rfl
  rw [unfolded, exactValue, exactValue]
  rcases finite_cases hx with ⟨s, hx⟩ | ⟨s, m, e, pos, hx, regular, top⟩ <;>
    rcases finite_cases hy with ⟨s', hy⟩ | ⟨s', m', e', pos', hy, regular', top'⟩ <;> rw [hx, hy]
  · change IsNearest (packed (UnpackedFloat.sub Format.binary64 (.zero s) (.zero s'))) (0 - 0)
    rw [sub_zero]
    cases s <;> cases s' <;> exact isNearest_packed_zero _
  · change IsNearest (packed (.finite (-s') m' e' pos')) (0 - underSign s' (m' * 2 ^ e'))
    rw [zero_sub, ← underSign_neg]
    exact isNearest_packed_form (-s') pos' regular' top'
  · change IsNearest (packed (.finite s m e pos)) (underSign s (m * 2 ^ e) - 0)
    rw [sub_zero]
    exact isNearest_packed_form s pos regular top
  · have exact := isNearest_normalize
      (s.apply (decreaseExponent m e (min e e')).1 - s'.apply (decreaseExponent m' e' (min e e')).1)
      (min e e') .positive
    rw [Int.cast_sub, sub_mul, value_of_lesser_exponent s m (min_le_left e e'),
      value_of_lesser_exponent s' m' (min_le_right e e')] at exact
    exact exact

/-! ### Quotients -/

/-- A whole quotient and its rest stand for the quotient. -/
theorem StandsFor.quotient (num : ℕ) {den : ℕ} (pos : 0 < den) :
    StandsFor
      (.ofMantissaAndAccuracy (num / den) (accuracyOfFraction (num % den) den)) num den := by
  rw [accuracyOfFraction]
  by_cases none : num % den = 0
  · rw [if_pos none]
    exact ⟨rfl, iff_of_false Bool.false_ne_true (by omega),
      iff_of_false Bool.false_ne_true fun h => h.1 none⟩
  rw [if_neg none]
  rcases lt_trichotomy (2 * (num % den)) den with less | half | more
  · rw [Nat.compare_eq_lt.mpr less]
    exact ⟨rfl, iff_of_false Bool.false_ne_true (by omega), iff_of_true rfl ⟨none, less.ne⟩⟩
  · rw [Nat.compare_eq_eq.mpr half]
    exact ⟨rfl, iff_of_true rfl half.ge, iff_of_false Bool.false_ne_true fun h => h.2 half⟩
  · rw [Nat.compare_eq_gt.mpr more]
    exact ⟨rfl, iff_of_true rfl more.le, iff_of_true rfl ⟨none, more.ne'⟩⟩

/-- A quotient of forms is taken to as many digits as a double at least, or to the smallest
exponent. -/
theorem le_roundingExponent_of_quotient {m₁ m₂ sh : ℕ} {e₁ e₂ t : ℤ} (pos₁ : 0 < m₁) (pos₂ : 0 < m₂)
    (shift : t + sh = e₁ - e₂)
    (h : t ≤ max ((m₁.log2 + 1 + e₁) - (m₂.log2 + 1 + e₂) - 53) (-1074)) :
    t ≤ roundingExponent (m₁ * 2 ^ sh / m₂) t := by
  by_cases bottom : t ≤ -1074
  · exact bottom.trans (le_max_right _ _)
  have digits : 52 ≤ (m₁ * 2 ^ sh / m₂).log2 := by
    have large : 2 ^ 52 ≤ m₁ * 2 ^ sh / m₂ := by
      rw [Nat.le_div_iff_mul_le pos₂]
      calc 2 ^ 52 * m₂ ≤ 2 ^ 52 * 2 ^ (m₂.log2 + 1) := Nat.mul_le_mul_left _ Nat.lt_log2_self.le
        _ = 2 ^ (52 + (m₂.log2 + 1)) := (Nat.pow_add 2 _ _).symm
        _ ≤ 2 ^ (m₁.log2 + sh) := Nat.pow_le_pow_right (by decide) (by omega)
        _ = 2 ^ m₁.log2 * 2 ^ sh := Nat.pow_add 2 _ _
        _ ≤ m₁ * 2 ^ sh := Nat.mul_le_mul_right _ (Nat.log2_self_le pos₁.ne')
    exact (Nat.le_log2 (by omega)).mpr large
  exact le_max_of_le_left (by omega)

theorem IsPositive.isFinite {t : Float} (ht : IsPositive t) : t.isFinite = true := by
  obtain ⟨m, e, pos, ht⟩ := ht
  change t.toModel.unpack.isFinite = true
  rw [ht]
  rfl

theorem exactValue_pos {t : Float} (ht : IsPositive t) : 0 < exactValue t := by
  obtain ⟨m, e, pos, ht⟩ := ht
  rw [exactValue, ht, unpackedValue, underSign]
  positivity

/-- Signs divide apart from magnitudes. -/
theorem underSign_div (s s' : Sign) (v w : ℚ) :
    underSign (s / s') (v / w) = underSign s v / underSign s' w := by
  cases s <;> cases s'
  · exact (neg_div_neg_eq v w).symm
  · exact (neg_div w v).symm
  · exact (div_neg v).symm
  · rfl

/-- **The quotient of a finite double by one that is not zero is the nearest double to the exact
one.** -/
theorem isNearest_quotient {x t : Float} (hx : x.isFinite = true) (ht : t.isFinite = true)
    (nonzero : exactValue t ≠ 0) :
    IsNearest (x / t).toModel.unpack (exactValue x / exactValue t) := by
  have unfolded : (x / t).toModel.unpack =
      packed (UnpackedFloat.div Format.binary64 x.toModel.unpack t.toModel.unpack) := rfl
  rw [exactValue] at nonzero
  rw [unfolded, exactValue, exactValue]
  rcases finite_cases ht with ⟨s', ht⟩ | ⟨s', m₂, e₂, pos₂, ht, -, -⟩ <;> rw [ht] at nonzero ⊢
  · exact absurd rfl nonzero
  rcases finite_cases hx with ⟨s, hx⟩ | ⟨s, m₁, e₁, pos₁, hx, -, -⟩ <;> rw [hx]
  · change IsNearest (packed (.zero (s / s'))) (0 / _)
    rw [zero_div]
    exact isNearest_packed_zero _
  · obtain ⟨target, least⟩ : ∃ target, target =
        min (e₁ - e₂) (max ((m₁.log2 + 1 + e₁) - (m₂.log2 + 1 + e₂) - 53) (-1074)) := ⟨_, rfl⟩
    obtain ⟨sh, shift⟩ : ∃ sh : ℕ, target + sh = e₁ - e₂ := ⟨(e₁ - e₂ - target).toNat, by omega⟩
    have width : (e₁ - e₂ - target).toNat = sh := by omega
    have quotient :
      UnpackedFloat.div Format.binary64 (.finite s m₁ e₁ pos₁) (.finite s' m₂ e₂ pos₂) =
        roundWithAccuracy Format.binary64 (s / s') (m₁ * 2 ^ sh / m₂) target
          (accuracyOfFraction (m₁ * 2 ^ sh % m₂) m₂) := by
      rw [← width, ← Nat.shiftLeft_eq, least]
      rfl
    have nearest := (StandsFor.quotient (m₁ * 2 ^ sh) pos₂).isNearest
      (Nat.mul_pos pos₁ (Nat.two_pow_pos sh)) pos₂
      (le_roundingExponent_of_quotient pos₁ pos₂ shift (least.trans_le (min_le_right _ _))) (s / s')
    have magnitude : ((m₁ * 2 ^ sh : ℕ) : ℚ) / m₂ * 2 ^ target = m₁ * 2 ^ e₁ / (m₂ * 2 ^ e₂) := by
      have exponent : (2 : ℚ) ^ e₁ / 2 ^ e₂ = 2 ^ target * 2 ^ sh := by
        rw [← zpow_sub₀ two_ne_zero, ← shift, zpow_add₀ two_ne_zero, zpow_natCast]
      rw [mul_div_mul_comm, exponent, Nat.cast_mul, Nat.cast_pow, Nat.cast_ofNat]
      ring
    rw [magnitude, underSign_div] at nearest
    rw [quotient]
    exact nearest

/-- The quotient of a finite double by one above zero is the nearest double to the exact one. -/
theorem isNearest_div {x t : Float} (hx : x.isFinite = true) (ht : IsPositive t) :
    IsNearest (x / t).toModel.unpack (exactValue x / exactValue t) :=
  isNearest_quotient hx ht.isFinite (exactValue_pos ht).ne'

/-! ### Order -/

/-- **Differences of finite doubles grow with the first and fall with the second.** -/
theorem sub_le_sub_of_finite {x x' y y' : Float} (hx : x.isFinite = true) (hx' : x'.isFinite = true)
    (hy : y.isFinite = true) (hy' : y'.isFinite = true) (h : x ≤ x') (h' : y' ≤ y) :
    x - y ≤ x' - y' :=
  (isNearest_sub hx hy).le (isNearest_sub hx' hy')
    (sub_le_sub ((le_iff_exactValue hx hx').mp h) ((le_iff_exactValue hy' hy).mp h'))

theorem finite_or_infinite {x : Float} (hx : x.isNaN = false) :
    x.isFinite = true ∨ ∃ s, x.toModel.unpack = .infinity s := by
  have number : x.toModel.unpack.isNaN = false := hx
  change x.toModel.unpack.isFinite = true ∨ _
  cases h : x.toModel.unpack with
  | infinity s => exact .inr ⟨s, rfl⟩
  | notANumber =>
      rw [h] at number
      cases number
  | _ => exact .inl rfl

/-- Only infinity above zero is not below it. -/
theorem le_infinity {x y : Float} (hx : x.isNaN = false)
    (hy : y.toModel.unpack = .infinity .positive) : x ≤ y := by
  have number : x.toModel.unpack.isNaN = false := hx
  rw [le_unfold, hy]
  rcases h : x.toModel.unpack with (_ | _) | _ | _ | ⟨_ | _, m, e, pos⟩
  case notANumber =>
    rw [h] at number
    cases number
  all_goals rfl

theorem infinity_le {x y : Float} (hx : x.toModel.unpack = .infinity .negative)
    (hy : y.isNaN = false) : x ≤ y := by
  have number : y.toModel.unpack.isNaN = false := hy
  rw [le_unfold, hx]
  rcases h : y.toModel.unpack with (_ | _) | _ | _ | ⟨_ | _, m, e, pos⟩
  case notANumber =>
    rw [h] at number
    cases number
  all_goals rfl

/-- A finite double is neither at most the one infinity nor at least the other. -/
theorem sign_of_infinite {x y : Float} (finite : x.isFinite = true) {s : Sign}
    (infinite : y.toModel.unpack = .infinity s) :
    (x ≤ y → s = .positive) ∧ (y ≤ x → s = .negative) := by
  rcases finite_cases finite with ⟨s', hx⟩
    | ⟨s', m, e, pos, hx, -, -⟩ <;> rw [le_unfold, le_unfold, infinite, hx] <;>
    cases s' <;> cases s <;> simp [UnpackedFloat.le, UnpackedFloat.compare]

section

variable {x y t t' : Float} (ht : IsPositive t) (ht' : IsPositive t')

include ht

/-- An infinite double stays what it is. -/
theorem unpack_div_of_infinite {s : Sign} (hx : x.toModel.unpack = .infinity s) :
    (x / t).toModel.unpack = .infinity s := by
  obtain ⟨m, e, pos, ht⟩ := ht
  have unfolded : (x / t).toModel.unpack =
      packed (UnpackedFloat.div Format.binary64 x.toModel.unpack t.toModel.unpack) := rfl
  rw [unfolded, hx, ht]
  change packed (.infinity (s / .positive)) = .infinity s
  cases s <;> rfl

theorem number_div (hx : x.isNaN = false) : (x / t).isNaN = false := by
  change (x / t).toModel.unpack.isNaN = false
  rcases finite_or_infinite hx with finite | ⟨s, infinite⟩
  · exact (isNearest_div finite ht).number
  · rw [unpack_div_of_infinite ht infinite]
    rfl

/-- **Quotients by a double above zero grow with the dividend.** -/
theorem div_le_div_of_le (h : x ≤ y) : x / t ≤ y / t := by
  obtain ⟨⟨hx, hy⟩, -⟩ := le_iff_not_lt.mp h
  have hx' := number_div ht hx
  have hy' := number_div ht hy
  rcases finite_or_infinite hx with finite | ⟨s, infinite⟩ <;> rcases finite_or_infinite hy
    with finite' | ⟨s', infinite'⟩
  · exact (isNearest_div finite ht).le (isNearest_div finite' ht)
      (div_le_div_of_nonneg_right ((le_iff_exactValue finite finite').mp h) (exactValue_pos ht).le)
  · obtain rfl := (sign_of_infinite finite infinite').1 h
    exact le_infinity hx' (unpack_div_of_infinite ht infinite')
  · obtain rfl := (sign_of_infinite finite' infinite).2 h
    exact infinity_le (unpack_div_of_infinite ht infinite) hy'
  · rw [le_unfold, unpack_div_of_infinite ht infinite, unpack_div_of_infinite ht infinite',
      ← infinite, ← infinite']
    exact le_unfold.mp h

theorem div_nonneg_of_nonneg (h : 0 ≤ x) : 0 ≤ x / t := by
  have nearest : IsNearest (0 / t).toModel.unpack 0 := by
    have exact := isNearest_div (x := 0) rfl ht
    have none : exactValue 0 = 0 := rfl
    rwa [none, zero_div] at exact
  exact le_of_le_of_le (isNearest_zero_float.le nearest le_rfl) (div_le_div_of_le ht h)

include ht' in
/-- **Quotients of a double at zero or below grow with the divisor.** -/
theorem div_le_div_of_nonpos (h : x ≤ 0) (le : t ≤ t') : x / t ≤ x / t' := by
  obtain ⟨⟨hx, -⟩, -⟩ := le_iff_not_lt.mp h
  rcases finite_or_infinite hx with fx | ⟨s, infinite⟩
  · refine (isNearest_div fx ht).le (isNearest_div fx ht') ?_
    have nonpos : exactValue x ≤ 0 := (le_iff_exactValue fx rfl).mp h
    have magnitudes := div_le_div_of_nonneg_left (neg_nonneg.mpr nonpos) (exactValue_pos ht)
      ((le_iff_exactValue ht.isFinite ht'.isFinite).mp le)
    rwa [neg_div, neg_div, neg_le_neg_iff] at magnitudes
  · rw [le_unfold, unpack_div_of_infinite ht infinite, unpack_div_of_infinite ht' infinite]
    cases s <;> rfl

end

/-! ### Negation -/

theorem unpack_neg (x : Float) : (-x).toModel.unpack = UnpackedFloat.neg x.toModel.unpack := by
  have unfolded : (-x).toModel.unpack = packed (UnpackedFloat.neg x.toModel.unpack) := rfl
  have kept := isStored_unpack x.toModel.toBits.toBitVec
  change IsStored x.toModel.unpack at kept
  rw [unfolded]
  cases h : x.toModel.unpack with
  | infinity s | zero s => cases s <;> rfl
  | notANumber => rfl
  | finite s m e pos =>
      rw [h] at kept
      exact unpack_pack pos kept.1 kept.2

theorem number_neg {x : Float} (hx : x.isNaN = false) : (-x).isNaN = false := by
  have number : x.toModel.unpack.isNaN = false := hx
  change (-x).toModel.unpack.isNaN = false
  rw [unpack_neg]
  cases h : x.toModel.unpack with
  | notANumber =>
      rw [h] at number
      cases number
  | _ => rfl

theorem signedBits_neg (x : Float) : signedBits (-x) = -signedBits x := by
  rw [signedBits, signedBits, unpack_neg]
  rcases x.toModel.unpack with (_ | _) | _ | _ | ⟨_ | _, m, e, pos⟩
  case finite.negative => exact (neg_neg _).symm
  all_goals rfl

theorem neg_le_neg_of_le {x y : Float} (h : x ≤ y) : -y ≤ -x := by
  obtain ⟨⟨hx, hy⟩, -⟩ := le_iff_not_lt.mp h
  rw [le_iff_signedBits hx hy] at h
  rw [le_iff_signedBits (number_neg hy) (number_neg hx), signedBits_neg, signedBits_neg]
  exact neg_le_neg h

theorem neg_nonpos_of_nonneg {x : Float} (h : 0 ≤ x) : -x ≤ 0 :=
  le_of_le_of_le (neg_le_neg_of_le h) (by decide +kernel)

theorem neg_nonneg_of_nonpos {x : Float} (h : x ≤ 0) : 0 ≤ -x :=
  le_of_le_of_le (by decide +kernel) (neg_le_neg_of_le h)

end Annealing
