import Annealing.Proofs.Number.Rounding

/-!
# Number — products with a factor below one

The product of a double and a factor between zero and one is not larger than the double, but it need
not be smaller: where the doubles are one unit apart, what the factor takes away may be less than
half a unit, and rounding gives it back. Such a number of units *stalls* (`Stalls`).

* `units_mul`: the units of a product (`productUnits`).
* `productUnits_le`, `productUnits_eq_iff`: a product has at most as many units as the double, and
  as many exactly if these stall.
* `le_productUnits`: no product of a larger number goes below one that stalls.
-/

namespace Annealing

open Float.Model UnpackedFloat Binary64

/-- Multiplying by a factor of `c` units takes nothing away from `n` units: what it should take away
is less than half of a unit, or exactly a half while `n` is even. -/
def Stalls (c n : ℕ) : Prop :=
  2 * (n * (oneUnits - c)) < oneUnits ∨ 2 * (n * (oneUnits - c)) = oneUnits ∧ n % 2 = 0

instance (c n : ℕ) : Decidable (Stalls c n) := inferInstanceAs (Decidable (_ ∨ _))

theorem Stalls.half_le {c n : ℕ} (h : Stalls c n) : 2 * (n * (oneUnits - c)) ≤ oneUnits := by
  rcases h with less | ⟨half, -⟩
  · exact less.le
  · exact half.le

/-- The exponent of the power of two whose multiples are the doubles around the product of `x` and
`c` units. -/
def productGrid (x c : ℕ) : ℕ := (x * c).log2 - (52 + oneExponent)

/-- The units of the product of doubles of `x` and of `c` units. -/
def productUnits (x c : ℕ) : ℕ :=
  divNearest (x * c) (oneUnits * 2 ^ productGrid x c) * 2 ^ productGrid x c

/-! ### The doubles around a product -/

/-- A number of units that a double can have: 53 binary digits at most, and zeros behind them. -/
def Short (x : ℕ) : Prop := ∃ m i, m < 2 ^ 53 ∧ x = m * 2 ^ i

variable {x c : ℕ}

/-- The doubles around a product are no further apart than those around the double itself, so the
double is one of the multiples among which the product is rounded. -/
theorem Short.exists_multiple (short : Short x) (below : c < oneUnits) :
    ∃ q, x = q * 2 ^ productGrid x c := by
  obtain ⟨m, i, fits, rfl⟩ := short
  have le : productGrid (m * 2 ^ i) c ≤ i := by
    by_cases none : m * 2 ^ i * c = 0
    · rw [productGrid, none, Nat.log2_zero, Nat.zero_sub]
      exact Nat.zero_le _
    · have small : m * 2 ^ i * c < 2 ^ (53 + oneExponent + i) := by
        calc m * 2 ^ i * c ≤ m * 2 ^ i * oneUnits := Nat.mul_le_mul_left _ below.le
          _ = m * oneUnits * 2 ^ i := Nat.mul_right_comm _ _ _
          _ < 2 ^ 53 * oneUnits * 2 ^ i := by
              refine Nat.mul_lt_mul_of_pos_right ?_ (Nat.two_pow_pos _)
              exact Nat.mul_lt_mul_of_pos_right fits oneUnits_pos
          _ = 2 ^ (53 + oneExponent + i) := by rw [two_pow_mul_oneUnits, ← Nat.pow_add]
      have log := (Nat.log2_lt none).mpr small
      clear small
      rw [productGrid]
      omega
  exact ⟨m * 2 ^ (i - productGrid (m * 2 ^ i) c),
    by rw [Nat.mul_assoc, ← Nat.pow_add, Nat.sub_add_cancel le]⟩

/-- Where the doubles around a product are more than one unit apart, the product has 53 binary
digits of them. -/
theorem le_of_productGrid (wide : 0 < productGrid x c) :
    2 ^ 52 * (oneUnits * 2 ^ productGrid x c) ≤ x * c := by
  have some : x * c ≠ 0 := by
    intro none
    rw [productGrid, none, Nat.log2_zero, Nat.zero_sub] at wide
    exact Nat.not_lt_zero _ wide
  have exponent : 52 + oneExponent + productGrid x c = (x * c).log2 := by
    rw [productGrid] at wide ⊢
    omega
  rw [← Nat.mul_assoc, two_pow_mul_oneUnits, ← Nat.pow_add, exponent]
  exact Nat.log2_self_le some

/-! ### What a factor below one takes away -/

/-- **A factor below one makes nothing larger.** -/
theorem productUnits_le (short : Short x) (below : c < oneUnits) : productUnits x c ≤ x := by
  obtain ⟨q, hq⟩ := short.exists_multiple below
  refine (Nat.mul_le_mul_right _ (divNearest_le (q := q) ?_ ?_)).trans_eq hq.symm
  · exact Nat.mul_pos oneUnits_pos (Nat.two_pow_pos _)
  · calc x * c ≤ x * oneUnits := Nat.mul_le_mul_left _ below.le
      _ = q * 2 ^ productGrid x c * oneUnits := congrArg (· * oneUnits) hq
      _ = q * (oneUnits * 2 ^ productGrid x c) := by ring

section

-- the largest double below one lacks `2 ^ 1021` units to it
variable (lack : oneUnits ≤ 2 ^ 53 * (oneUnits - c))

include lack

theorem below_of_lack : c < oneUnits := by
  have pos := oneUnits_pos
  by_contra reached
  rw [Nat.sub_eq_zero_of_le (Nat.le_of_not_lt reached)] at lack
  omega

/-- Where the doubles around a product are more than one unit apart, more than half of the distance
is taken away. -/
theorem takes_of_productGrid (short : Short x) (pos : 0 < x) (wide : 0 < productGrid x c) :
    oneUnits * 2 ^ productGrid x c < 2 * (x * (oneUnits - c)) := by
  have below := below_of_lack lack
  obtain ⟨q, hq⟩ := short.exists_multiple below
  have many : 2 ^ 52 < q := by
    refine Nat.lt_of_mul_lt_mul_right (a := oneUnits * 2 ^ productGrid x c) ?_
    calc 2 ^ 52 * (oneUnits * 2 ^ productGrid x c)
        ≤ x * c := le_of_productGrid wide
      _ < x * oneUnits := Nat.mul_lt_mul_of_pos_left below pos
      _ = q * 2 ^ productGrid x c * oneUnits := congrArg (· * oneUnits) hq
      _ = q * (oneUnits * 2 ^ productGrid x c) := by ring
  calc oneUnits * 2 ^ productGrid x c
      ≤ 2 ^ 53 * (oneUnits - c) * 2 ^ productGrid x c := Nat.mul_le_mul_right _ lack
    _ = 2 * (2 ^ 52 * 2 ^ productGrid x c * (oneUnits - c)) := by ring
    _ < 2 * (q * 2 ^ productGrid x c * (oneUnits - c)) := by
        refine Nat.mul_lt_mul_of_pos_left ?_ Nat.two_pos
        refine Nat.mul_lt_mul_of_pos_right ?_ (Nat.sub_pos_of_lt below)
        exact Nat.mul_lt_mul_of_pos_right many (Nat.two_pow_pos _)
    _ = 2 * (x * (oneUnits - c)) := by rw [← hq]

/-- **A factor below one makes a number no smaller exactly if the number stalls.** -/
theorem productUnits_eq_iff (short : Short x) (pos : 0 < x) :
    productUnits x c = x ↔ Stalls c x := by
  have below := below_of_lack lack
  obtain ⟨q, hq⟩ := short.exists_multiple below
  have whole : q * (oneUnits * 2 ^ productGrid x c) = x * oneUnits := by
    calc q * (oneUnits * 2 ^ productGrid x c) = q * 2 ^ productGrid x c * oneUnits := by ring
      _ = x * oneUnits := by rw [← hq]
  have less : x * c < q * (oneUnits * 2 ^ productGrid x c) := by
    rw [whole]
    exact Nat.mul_lt_mul_of_pos_left below pos
  have nearest : productUnits x c = x ↔
      divNearest (x * c) (oneUnits * 2 ^ productGrid x c) = q := by
    rw [productUnits]
    constructor
    · exact fun h => Nat.eq_of_mul_eq_mul_right (Nat.two_pow_pos _) (h.trans hq)
    · exact fun h => by rw [h, ← hq]
  rw [nearest, divNearest_eq_iff less, whole, ← Nat.mul_sub]
  by_cases wide : 0 < productGrid x c
  · have takes := takes_of_productGrid lack short pos wide
    have more : oneUnits ≤ oneUnits * 2 ^ productGrid x c :=
      Nat.le_mul_of_pos_right _ (Nat.two_pow_pos _)
    exact iff_of_false (by omega) (by unfold Stalls; omega)
  · rw [Nat.eq_zero_of_not_pos wide, Nat.pow_zero, Nat.mul_one] at hq ⊢
    rw [← hq, Stalls]

theorem stalls_of_le {n : ℕ} (h : Stalls c x) (le : n ≤ x) : Stalls c n := by
  rcases le.lt_or_eq with less | rfl
  · have fewer := Nat.mul_lt_mul_of_pos_right less (Nat.sub_pos_of_lt (below_of_lack lack))
    exact .inl ((Nat.mul_lt_mul_of_pos_left fewer Nat.two_pos).trans_le h.half_le)
  · exact h

/-- Numbers that stall are small. -/
theorem le_of_stalls {n : ℕ} (h : Stalls c n) : n ≤ 2 ^ 52 := by
  refine Nat.le_of_mul_le_mul_right ?_
    (Nat.mul_pos Nat.two_pos (Nat.sub_pos_of_lt (below_of_lack lack)))
  calc n * (2 * (oneUnits - c)) = 2 * (n * (oneUnits - c)) := by ring
    _ ≤ 2 ^ 53 * (oneUnits - c) := h.half_le.trans lack
    _ = 2 ^ 52 * (2 * (oneUnits - c)) := by ring

/-- What is taken away from a number is no more than by what it exceeds a smaller one that
stalls. -/
theorem exceeds_of_stalls {n : ℕ} (h : Stalls c n) (some : 0 < n) (less : n < x) :
    n * oneUnits ≤ x * c := by
  have below := below_of_lack lack
  obtain ⟨d, rfl⟩ := Nat.exists_eq_add_of_lt less
  have lackHalf : 2 * (oneUnits - c) ≤ oneUnits :=
    (Nat.mul_le_mul_left 2 (Nat.le_mul_of_pos_left _ some)).trans h.half_le
  have taken : 2 * ((n + d + 1) * (oneUnits - c)) ≤ 2 * ((d + 1) * oneUnits) := by
    calc 2 * ((n + d + 1) * (oneUnits - c))
        = 2 * (n * (oneUnits - c)) + (d + 1) * (2 * (oneUnits - c)) := by ring
      _ ≤ oneUnits + (d + 1) * oneUnits := Nat.add_le_add h.half_le (Nat.mul_le_mul_left _ lackHalf)
      _ ≤ (d + 1) * oneUnits + (d + 1) * oneUnits :=
          Nat.add_le_add_right (Nat.le_mul_of_pos_left _ d.succ_pos) _
      _ = 2 * ((d + 1) * oneUnits) := (Nat.two_mul _).symm
  have parts :
      (n + d + 1) * c + (n + d + 1) * (oneUnits - c) = n * oneUnits + (d + 1) * oneUnits := by
    rw [← Nat.mul_add, Nat.add_sub_cancel' below.le]
    ring
  omega

/-- **No product of a larger number goes below a number that stalls.** -/
theorem le_productUnits {n : ℕ} (h : Stalls c n) (some : 0 < n) (short : Short x) (le : n ≤ x) :
    n ≤ productUnits x c := by
  rcases le.lt_or_eq with less | rfl
  · by_cases wide : 0 < productGrid x c
    · have many : 2 ^ 52 ≤ divNearest (x * c) (oneUnits * 2 ^ productGrid x c) :=
        le_divNearest (Nat.mul_pos oneUnits_pos (Nat.two_pow_pos _)) (le_of_productGrid wide)
      calc n ≤ 2 ^ 52 := le_of_stalls lack h
        _ ≤ divNearest (x * c) (oneUnits * 2 ^ productGrid x c) := many
        _ ≤ productUnits x c := Nat.le_mul_of_pos_right _ (Nat.two_pow_pos _)
    · have narrow : productGrid x c = 0 := Nat.eq_zero_of_not_pos wide
      rw [productUnits, narrow, Nat.pow_zero, Nat.mul_one, Nat.mul_one]
      exact le_divNearest oneUnits_pos (exceeds_of_stalls lack h some less)
  · exact ((productUnits_eq_iff lack short some).mpr h).ge

end

/-! ### Products of doubles -/

theorem IsPositive.short {x : Float} (h : IsPositive x) : Short (units x) := by
  obtain ⟨m, e, -, regular, -, value⟩ := h.regular
  exact ⟨m, _, regular.below, value⟩

/-- Rounding the product of two forms gives the units of their product. -/
theorem formUnits_rounded {m₁ m₂ : ℕ} {e₁ e₂ : ℤ} (least₁ : -1074 ≤ e₁) (least₂ : -1074 ≤ e₂)
    (pos : 0 < m₁ * m₂) (below : e₁ + e₂ ≤ roundingExponent (m₁ * m₂) (e₁ + e₂)) :
    formUnits (divNearest (m₁ * m₂) (2 ^ (roundingExponent (m₁ * m₂) (e₁ + e₂) - (e₁ + e₂)).toNat))
        (roundingExponent (m₁ * m₂) (e₁ + e₂)) =
      productUnits (formUnits m₁ e₁) (formUnits m₂ e₂) := by
  have one := oneExponent_eq
  obtain ⟨a, ha⟩ : ∃ a, a = (e₁ + 1074).toNat + (e₂ + 1074).toNat := ⟨_, rfl⟩
  have product : formUnits m₁ e₁ * formUnits m₂ e₂ = m₁ * m₂ * 2 ^ a := by
    rw [formUnits, formUnits, ha, Nat.pow_add]
    ring
  have grid : productGrid (formUnits m₁ e₁) (formUnits m₂ e₂) =
      (roundingExponent (m₁ * m₂) (e₁ + e₂) + 1074).toNat := by
    rw [productGrid, product, log2_mul_two_pow pos, roundingExponent]
    omega
  have width : (roundingExponent (m₁ * m₂) (e₁ + e₂) - (e₁ + e₂)).toNat + a =
      oneExponent + (roundingExponent (m₁ * m₂) (e₁ + e₂) + 1074).toNat := by
    have least : -1074 ≤ roundingExponent (m₁ * m₂) (e₁ + e₂) := le_max_right _ _
    omega
  rw [productUnits, grid, product, oneUnits, ← Nat.pow_add, ← width, Nat.pow_add,
    divNearest_mul (Nat.two_pow_pos _), formUnits]

/-- A product with a factor below one has as many digits as a double at least, or is smaller than
all of them. -/
theorem le_roundingExponent {m₁ m₂ : ℕ} {e₁ e₂ : ℤ} (h₁ : Regular m₁ e₁) (h₂ : Regular m₂ e₂)
    (pos₂ : 0 < m₂) (below : formUnits m₂ e₂ < oneUnits) :
    e₁ + e₂ ≤ roundingExponent (m₁ * m₂) (e₁ + e₂) := by
  rcases h₁.full with full | bottom
  · have digits : 52 ≤ (m₁ * m₂).log2 := by
      have large : 2 ^ 52 ≤ m₁ * m₂ := full.trans (Nat.le_mul_of_pos_right _ pos₂)
      exact (Nat.le_log2 (by omega)).mpr large
    exact le_max_of_le_left (by omega)
  · have small := exponent_lt_of_lt_one h₂ below
    exact le_max_of_le_right (by omega)

/-- **The units of a product.** -/
theorem units_mul {x c : Float} (hx : IsPositive x) (hc : IsPositive c)
    (below : units c < oneUnits) :
    IsNonnegative (x * c) ∧ units (x * c) = productUnits (units x) (units c) := by
  obtain ⟨m₁, e₁, pos₁, hx⟩ := hx
  obtain ⟨m₂, e₂, pos₂, hc⟩ := hc
  obtain ⟨regular₁, bounded₁⟩ := ofParts_regular ((unpack_eq _).symm.trans hx)
  obtain ⟨regular₂, -⟩ := ofParts_regular ((unpack_eq _).symm.trans hc)
  have units₁ : units x = formUnits m₁ e₁ := by rw [units, hx]; rfl
  have units₂ : units c = formUnits m₂ e₂ := by rw [units, hc]; rfl
  rw [units₂] at below
  have exponent := le_roundingExponent regular₁ regular₂ pos₂ below
  have product : (x * c).toModel.unpack = UnpackedFloat.unpack Format.binary64
      (UnpackedFloat.pack Format.binary64
      (roundWithAccuracy Format.binary64 .positive (m₁ * m₂) (e₁ + e₂) .exact)) := by
    have unfolded : (x * c).toModel.unpack = UnpackedFloat.unpack Format.binary64
        (UnpackedFloat.pack Format.binary64
      (UnpackedFloat.mul Format.binary64 x.toModel.unpack c.toModel.unpack)) := rfl
    rw [unfolded, hx, hc]
    rfl
  have closes := roundWithAccuracy_closes .positive exponent
  have value := formUnits_rounded regular₁.least regular₂.least (Nat.mul_pos pos₁ pos₂) exponent
  have short : Short (formUnits m₁ e₁) := ⟨m₁, _, regular₁.below, rfl⟩
  rw [units₁, units₂, ← value]
  generalize roundWithAccuracy Format.binary64 .positive (m₁ * m₂)
    (e₁ + e₂) .exact = rounded at product closes
  cases closes with
  | zero none =>
      rw [unpack_pack_zero] at product
      refine ⟨.inr ⟨_, product⟩, ?_⟩
      rw [units_zero product, none, formUnits, Nat.zero_mul]
  | @finite m e pos regular same =>
      have bounded : e ≤ 971 := by
        by_contra large
        have less := formUnits_lt_of_exponent regular₁ regular (by omega)
        rw [same, value] at less
        exact absurd (productUnits_le short below) (Nat.not_le.mpr less)
      rw [unpack_pack pos regular bounded] at product
      refine ⟨.inl ⟨m, e, pos, product⟩, ?_⟩
      rw [← same, units, product]
      rfl

end Annealing
