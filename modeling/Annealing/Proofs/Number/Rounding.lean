import Annealing.Proofs.Number.Units
import Annealing.Number.Binary64

/-!
# Number — rounding to doubles

Arithmetic on doubles is exact at first and then rounds: the bits of the exact mantissa that a
double has no place for are shifted out, and the mantissa becomes the nearest integer to what it
was, the even one of two equally near.

* `divNearest_eq_iff`: when the nearest integer to a quotient is the next one above it.
* `StandsFor`: what a shifted mantissa with the two bits behind it stands for, so that its rounding
  is `divNearest`.
* `StandsFor.roundWithAccuracy_closes`: rounding takes a quotient to the nearest multiple of the
  power of two that the doubles around it have, and the result is regular.
-/

namespace Annealing

open Float.Model UnpackedFloat

namespace Binary64

/-! ### The nearest integer to a quotient -/

variable {num den : ℕ}

theorem divNearest_le_succ : divNearest num den ≤ num / den + 1 := by
  unfold divNearest
  dsimp only
  split_ifs <;> omega

theorem divNearest_le {q : ℕ} (pos : 0 < den) (h : num ≤ q * den) : divNearest num den ≤ q := by
  rcases h.lt_or_eq with h | rfl
  · exact divNearest_le_succ.trans ((Nat.div_lt_iff_lt_mul pos).mpr h)
  · rw [divNearest, Nat.mul_div_cancel _ pos, Nat.mul_mod_left]
    simp [pos]

theorem le_divNearest {q : ℕ} (pos : 0 < den) (h : q * den ≤ num) : q ≤ divNearest num den := by
  have below : q ≤ num / den := (Nat.le_div_iff_mul_le pos).mpr h
  unfold divNearest
  dsimp only
  split_ifs <;> omega

theorem divNearest_le_of_le {num' : ℕ} (pos : 0 < den) (h : num ≤ num') :
    divNearest num den ≤ divNearest num' den := by
  rcases (Nat.div_le_div_right h : num / den ≤ num' / den).lt_or_eq with less | same
  · calc divNearest num den ≤ num / den + 1 := divNearest_le_succ
      _ ≤ num' / den := less
      _ ≤ divNearest num' den := le_divNearest pos (Nat.div_mul_le_self num' den)
  · have rest : num % den ≤ num' % den := by
      have parts := Nat.div_add_mod num den
      have parts' := Nat.div_add_mod num' den
      rw [same] at parts
      omega
    unfold divNearest
    rw [same]
    dsimp only
    split_ifs <;> omega

theorem divNearest_mul {c : ℕ} (pos : 0 < c) :
    divNearest (num * c) (den * c) = divNearest num den := by
  have half : ∀ {a b : ℕ}, 2 * (a * c) < b * c ↔ 2 * a < b := by
    intro a b
    rw [← Nat.mul_assoc, Nat.mul_lt_mul_right pos]
  have half' : ∀ {a b : ℕ}, b * c < 2 * (a * c) ↔ b < 2 * a := by
    intro a b
    rw [← Nat.mul_assoc, Nat.mul_lt_mul_right pos]
  simp only [divNearest, Nat.mul_div_mul_right _ _ pos, Nat.mul_mod_mul_right, half, half']

/-- A greater quotient has no lesser nearest integer. -/
theorem divNearest_mono {num' den' : ℕ} (pos : 0 < den) (pos' : 0 < den')
    (h : num * den' ≤ num' * den) :
    divNearest num den ≤ divNearest num' den' := by
  rw [← divNearest_mul pos', ← @divNearest_mul num' den' den pos, Nat.mul_comm den' den]
  exact divNearest_le_of_le (Nat.mul_pos pos pos') h

/-- The nearest integer to a quotient that is below `q` is `q` if the quotient lacks less than a
half of it, or exactly a half of an even one. -/
theorem divNearest_eq_iff {q : ℕ} (h : num < q * den) :
    divNearest num den = q ↔ 2 * (q * den - num) < den ∨ 2 * (q * den - num) = den ∧ q % 2 = 0 := by
  have pos : 0 < den := Nat.pos_of_mul_pos_left (Nat.lt_of_le_of_lt (Nat.zero_le _) h)
  have parts : den * (num / den) + num % den = num := Nat.div_add_mod num den
  have rest : num % den < den := Nat.mod_lt _ pos
  have quotient : num / den < q := (Nat.div_lt_iff_lt_mul pos).mpr h
  by_cases next : q = num / den + 1
  · -- what is lacking to `q` is what the rest lacks to the divisor
    have lacking : q * den - num = den - num % den := by
      rw [next, Nat.add_mul, Nat.one_mul, Nat.mul_comm]
      omega
    rw [lacking, next]
    unfold divNearest
    dsimp only
    split_ifs <;> omega
  · have far : (num / den + 2) * den ≤ q * den := Nat.mul_le_mul_right _ (by omega)
    rw [Nat.add_mul, Nat.mul_comm _ den] at far
    have less : divNearest num den < q := Nat.lt_of_le_of_lt divNearest_le_succ (by omega)
    exact iff_of_false less.ne (by omega)

end Binary64

open Binary64

/-! ### Shifting -/

/-- An extended mantissa that stands for a quotient: the bits behind the mantissa say where the rest
stands with respect to a half. -/
structure StandsFor (em : ExtendedMantissa) (num den : ℕ) : Prop where
  mantissa : em.mantissa = num / den
  roundBit : em.roundBit = true ↔ den ≤ 2 * (num % den)
  stickyBit : em.stickyBit = true ↔ num % den ≠ 0 ∧ 2 * (num % den) ≠ den

namespace StandsFor

variable {em : ExtendedMantissa} {num den : ℕ}

theorem exact (m : ℕ) : StandsFor (.ofMantissaAndAccuracy m .exact) m 1 where
  mantissa := (Nat.div_one m).symm
  roundBit := by simp [ExtendedMantissa.ofMantissaAndAccuracy, Nat.mod_one]
  stickyBit := by simp [ExtendedMantissa.ofMantissaAndAccuracy, Nat.mod_one]

theorem shiftRightOne (h : StandsFor em num den) (pos : 0 < den) :
    StandsFor em.shiftRightOne num (den * 2) := by
  have rest : num % den < den := Nat.mod_lt _ pos
  have parts : num % (den * 2) = num % den + den * (num / den % 2) := Nat.mod_mul
  refine ⟨?_, ?_, ?_⟩
  · rw [ExtendedMantissa.shiftRightOne, h.mantissa, Nat.div_div_eq_div_mul]
  · rw [ExtendedMantissa.shiftRightOne, h.mantissa, parts, bne_iff_ne]
    rcases Nat.mod_two_eq_zero_or_one (num / den) with lower | upper
    · rw [lower]
      omega
    · rw [upper]
      omega
  · rw [ExtendedMantissa.shiftRightOne, Bool.or_eq_true, h.roundBit, h.stickyBit, parts]
    rcases Nat.mod_two_eq_zero_or_one (num / den) with lower | upper
    · rw [lower]
      omega
    · rw [upper]
      omega

theorem shiftRight (h : StandsFor em num den) (pos : 0 < den) (k : ℕ) :
    StandsFor (em >>> k) num (den * 2 ^ k) := by
  change StandsFor (k.repeat ExtendedMantissa.shiftRightOne em) _ _
  induction k with
  | zero => rwa [Nat.pow_zero, Nat.mul_one]
  | succ k ih =>
      rw [Nat.pow_succ, ← Nat.mul_assoc]
      exact ih.shiftRightOne (Nat.mul_pos pos (Nat.two_pow_pos k))

/-- Rounding takes the nearest integer. -/
theorem roundedMantissa_eq (h : StandsFor em num den) (pos : 0 < den) :
    em.roundedMantissa = divNearest num den := by
  obtain ⟨m, roundBit, stickyBit⟩ := em
  obtain ⟨hm, hr, hs⟩ := h
  have rest : num % den < den := Nat.mod_lt _ pos
  simp only at hm hr hs
  unfold divNearest
  rw [← hm]
  cases roundBit <;> cases stickyBit <;> simp only [Bool.false_eq_true, false_iff,
    true_iff] at hr hs <;>
    simp only [ExtendedMantissa.roundedMantissa, ExtendedMantissa.accuracy,
      Accuracy.roundToNearestEven] <;>
    split_ifs <;> omega

end StandsFor

/-- The exponent that the doubles around `m * 2 ^ e` have. -/
def roundingExponent (m : ℕ) (e : ℤ) : ℤ := max (m.log2 + 1 + e - 53) (-1074)

theorem log2_mul_two_pow {m : ℕ} (pos : 0 < m) (k : ℕ) : (m * 2 ^ k).log2 = m.log2 + k := by
  obtain ⟨low, high⟩ : 2 ^ m.log2 ≤ m ∧ m < 2 ^ (m.log2 + 1) := (Nat.log2_eq_iff pos.ne').mp rfl
  refine (Nat.log2_eq_iff (Nat.mul_pos pos (Nat.two_pow_pos k)).ne').mpr ⟨?_, ?_⟩
  · rw [Nat.pow_add]
    exact Nat.mul_le_mul_right _ low
  · rw [Nat.add_right_comm, Nat.pow_add]
    exact Nat.mul_lt_mul_of_pos_right high (Nat.two_pow_pos k)

theorem shiftToTargetExponent_eq (m : ℕ) (e : ℤ) (accuracy : Accuracy) :
    shiftToTargetExponent Format.binary64 m e accuracy =
      (ExtendedMantissa.ofMantissaAndAccuracy m accuracy >>> (roundingExponent m e - e).toNat,
        e + (roundingExponent m e - e).toNat) := rfl

/-- A form whose exponent is at least that of the doubles around it is shifted by nothing. -/
theorem shift_small {m : ℕ} {e : ℤ} (h : roundingExponent m e ≤ e) :
    shiftToTargetExponent Format.binary64 m e .exact =
      (ExtendedMantissa.ofMantissaAndAccuracy m .exact, e) := by
  have none : (roundingExponent m e - e).toNat = 0 := by omega
  rw [shiftToTargetExponent_eq, none]
  exact congrArg (Prod.mk _) (Int.add_zero e)

/-- A mantissa that rounding has filled up by one is shifted by one. -/
theorem shift_full {e : ℤ} (least : -1074 ≤ e) :
    shiftToTargetExponent Format.binary64 (2 ^ 53) e .exact =
      (ExtendedMantissa.ofMantissaAndAccuracy (2 ^ 52) .exact, e + 1) := by
  have exponent : roundingExponent (2 ^ 53) e = e + 1 := by
    rw [roundingExponent, Nat.log2_two_pow]
    omega
  have one : (e + 1 - e).toNat = 1 := by omega
  rw [shiftToTargetExponent_eq, exponent, one]
  rfl

/-! ### Rounding -/

/-- An unpacked double that is the given number of units times a power of two, in regular form if it
is not zero. -/
inductive Closes (s : Sign) (n : ℕ) (e : ℤ) : UnpackedFloat → Prop where
  | zero (none : n = 0) : Closes s n e (.zero s)
  | finite {m : ℕ} {e' : ℤ} (pos : 0 < m) (regular : Regular m e')
      (value : formUnits m e' = formUnits n e) :
      Closes s n e (.finite s m e' pos)

/-- The mantissa that rounding comes to has at most 53 binary digits or is the next number, and no
less than 53 if there are doubles of a smaller exponent. -/
theorem nearest_bounds {num den : ℕ} {e : ℤ} (pos : 0 < den)
    (below : e ≤ roundingExponent (num / den) e) :
    divNearest num (den * 2 ^ (roundingExponent (num / den) e - e).toNat) ≤ 2 ^ 53 ∧
      (2 ^ 52 ≤ divNearest num (den * 2 ^ (roundingExponent (num / den) e - e).toNat) ∨
        roundingExponent (num / den) e = -1074) := by
  have scaled : 0 < den * 2 ^ (roundingExponent (num / den) e - e).toNat :=
    Nat.mul_pos pos (Nat.two_pow_pos _)
  constructor
  · have high : num < den * 2 ^ ((num / den).log2 + 1) := by
      rw [Nat.mul_comm]
      exact (Nat.div_lt_iff_lt_mul pos).mp Nat.lt_log2_self
    refine divNearest_le scaled (high.le.trans ?_)
    rw [Nat.mul_left_comm, ← Nat.pow_add]
    refine Nat.mul_le_mul_left _ (Nat.pow_le_pow_right (by decide) ?_)
    have exponent : ((num / den).log2 + 1 + e - 53 : ℤ) ≤ roundingExponent (num / den) e :=
      le_max_left _ _
    omega
  · by_cases bottom : roundingExponent (num / den) e = -1074
    · exact .inr bottom
    · have exponent : roundingExponent (num / den) e = (num / den).log2 + 1 + e - 53 :=
        (max_choice _ _).resolve_right bottom
      have digits : 52 + (roundingExponent (num / den) e - e).toNat = (num / den).log2 := by omega
      have some : num / den ≠ 0 := by
        intro none
        rw [none, Nat.log2_zero] at digits
        omega
      refine .inl (le_divNearest scaled ?_)
      calc 2 ^ 52 * (den * 2 ^ (roundingExponent (num / den) e - e).toNat)
          = den * 2 ^ (num / den).log2 := by rw [Nat.mul_left_comm, ← Nat.pow_add, digits]
        _ ≤ den * (num / den) := Nat.mul_le_mul_left _ (Nat.log2_self_le some)
        _ ≤ num := Nat.mul_div_le num den

/-- The second shift keeps the number and makes its form regular. -/
theorem secondShift_closes (s : Sign) {n : ℕ} {t : ℤ} (atMost : n ≤ 2 ^ 53) (least : -1074 ≤ t)
    (full : 2 ^ 52 ≤ n ∨ t = -1074) :
    Closes s n t
      (if h : (shiftToTargetExponent Format.binary64 n t .exact).1.mantissa = 0 then .zero s
      else .finite s (shiftToTargetExponent Format.binary64 n t .exact).1.mantissa
        (shiftToTargetExponent Format.binary64 n t .exact).2 (Nat.pos_of_ne_zero h)) := by
  rcases atMost.lt_or_eq with below | rfl
  · have fits : roundingExponent n t ≤ t := by
      have digits : n.log2 < 53 := by
        by_cases none : n = 0
        · rw [none]
          decide
        · exact (Nat.log2_lt none).mpr below
      exact max_le (by omega) least
    simp only [shift_small fits, ExtendedMantissa.ofMantissaAndAccuracy]
    by_cases none : n = 0
    · rw [dif_pos none]
      exact .zero none
    · rw [dif_neg none]
      exact .finite (Nat.pos_of_ne_zero none) ⟨below, least, full⟩ rfl
  · simp only [shift_full least, ExtendedMantissa.ofMantissaAndAccuracy]
    rw [dif_neg (by decide)]
    refine .finite (by decide) ⟨by decide, by omega, .inl le_rfl⟩ ?_
    have next : (t + 1 + 1074).toNat = (t + 1074).toNat + 1 := by omega
    rw [formUnits, formUnits, next]
    ring

/-- **Rounding takes a quotient to the nearest multiple of the power of two that the doubles around
it have.** -/
theorem StandsFor.roundWithAccuracy_closes {m num den : ℕ} {accuracy : Accuracy} {e : ℤ}
    (stands : StandsFor (.ofMantissaAndAccuracy m accuracy) num den) (pos : 0 < den)
    (below : e ≤ roundingExponent (num / den) e) (s : Sign) :
    Closes s (divNearest num (den * 2 ^ (roundingExponent (num / den) e - e).toNat))
      (roundingExponent (num / den) e)
      (roundWithAccuracy Format.binary64 s m e accuracy) := by
  obtain ⟨atMost, full⟩ := nearest_bounds pos below
  obtain rfl : m = num / den := by
    rw [← stands.mantissa]
    rcases accuracy with _ | _ | _ | _ <;> rfl
  have rounded :=
    (stands.shiftRight pos (roundingExponent (num / den) e - e).toNat).roundedMantissa_eq
    (Nat.mul_pos pos (Nat.two_pow_pos _))
  have exponent :
      e + (roundingExponent (num / den) e - e).toNat = roundingExponent (num / den) e := by omega
  simp only [roundWithAccuracy, shiftToTargetExponent_eq (num / den) e, rounded, exponent]
  exact secondShift_closes s atMost (le_max_right _ _) full

/-- Rounding takes a whole mantissa to the nearest multiple. -/
theorem roundWithAccuracy_closes (s : Sign) {m : ℕ} {e : ℤ} (below : e ≤ roundingExponent m e) :
    Closes s (divNearest m (2 ^ (roundingExponent m e - e).toNat)) (roundingExponent m e)
      (roundWithAccuracy Format.binary64 s m e .exact) := by
  have closes :=
    (StandsFor.exact m).roundWithAccuracy_closes Nat.one_pos (e := e) (by rwa [Nat.div_one]) s
  rwa [Nat.one_mul, Nat.div_one] at closes

end Annealing
