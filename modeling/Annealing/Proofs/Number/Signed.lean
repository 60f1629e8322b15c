import Annealing.Proofs.Number.Monotone
import Annealing.Number.Power

/-!
# Number — the nearest double to a rational

The bits of a double without its sign grow with its magnitude, and those of infinity are above all
others.  Read under the sign, they order the doubles that are numbers (`lt_iff_signedBits`).  The
signed bits of the double nearest to a rational grow with the rational (`roundedBits_mono`), so the
nearest doubles of two rationals keep their order (`IsNearest.le`).

* `IsNearest`: an unpacked double that is the nearest to a rational, infinite if the rational is
  beyond all doubles.
* `isNearest_value`: a finite double is the nearest to its own value.
* `le_iff_exactValue`: finite doubles have the order of their values.
-/

namespace Annealing

open Float.Model UnpackedFloat Binary64

/-! ### Signed bits -/

/-- The bits of an unpacked double without its sign, under its sign. -/
def unpackedBits : UnpackedFloat → ℤ
  | .infinity s => s.apply (2047 * 2 ^ 52)
  | .notANumber | .zero _ => 0
  | .finite s m e _ => s.apply (magnitudeBits ⟨false, m, e⟩)

/-- The bits of a double without its sign, under its sign. -/
def signedBits (x : Float) : ℤ := unpackedBits x.toModel.unpack

/-- What is finite is in the form in which it is kept. -/
def IsStored : UnpackedFloat → Prop
  | .finite _ m e _ => Regular m e ∧ e ≤ 971
  | _ => True

theorem isStored_unpack (bits : BitVec 64) :
    IsStored (UnpackedFloat.unpack Format.binary64 bits) := by
  cases h : UnpackedFloat.unpack Format.binary64 bits with
  | finite s m e pos => exact ofParts_regular ((unpack_eq _).symm.trans h)
  | _ => trivial

section

variable {m : ℕ} {e : ℤ}

theorem magnitudeBits_pos (pos : 0 < m) : 0 < magnitudeBits ⟨false, m, e⟩ :=
  Nat.lt_of_lt_of_le pos (Nat.le_add_left _ _)

theorem magnitudeBits_lt (regular : Regular m e) (top : e ≤ 971) :
    magnitudeBits ⟨false, m, e⟩ < 2047 * 2 ^ 52 := by
  have below := regular.below
  show (e + 1074).toNat * 2 ^ 52 + m < 2047 * 2 ^ 52
  omega

theorem magnitudeBits_lt_iff {m' : ℕ} {e' : ℤ} (regular : Regular m e) (regular' : Regular m' e') :
    magnitudeBits ⟨false, m, e⟩ < magnitudeBits ⟨false, m', e'⟩ ↔ e < e' ∨ e = e' ∧ m < m' := by
  rw [← formUnits_lt_iff regular regular', ← not_le, ← not_le, not_iff_not]
  exact magnitudeBits_le_iff regular' regular

end

/-- Unpacked doubles that are numbers compare like their signed bits. -/
theorem unpacked_lt_iff_bits {a b : UnpackedFloat} (ha : a.isNaN = false) (hb : b.isNaN = false)
    (sa : IsStored a) (sb : IsStored b) : a.lt b = true ↔ unpackedBits a < unpackedBits b := by
  rcases a with (_ | _) | _ | _ | ⟨_ | _, m₁, e₁, h₁⟩ <;> rcases b with (_ | _)
    | _ | _ | ⟨_ | _, m₂, e₂, h₂⟩
  -- of two finite doubles of one sign the bits decide, and of any others the shapes
  case finite.positive.finite.positive =>
    simp only [UnpackedFloat.lt, UnpackedFloat.compare, beq_iff_eq, Option.some.injEq,
      then_eq_lt_iff, unpackedBits, Sign.apply, Int.ofNat_lt]
    exact (magnitudeBits_lt_iff sa.1 sb.1).symm
  case finite.negative.finite.negative =>
    simp only [UnpackedFloat.lt, UnpackedFloat.compare, beq_iff_eq, Option.some.injEq,
      Ordering.swap_eq_lt, then_eq_gt_iff, unpackedBits, Sign.apply, neg_lt_neg_iff, Int.ofNat_lt]
    rw [magnitudeBits_lt_iff sb.1 sa.1]
    exact or_congr_right (and_congr_left' eq_comm)
  all_goals
    have bits_pos : ∀ {m e}, 0 < m → 0 < magnitudeBits ⟨false, m, e⟩ := magnitudeBits_pos
    have bits_lt : ∀ {m e}, Regular m e → e ≤ 971 → magnitudeBits ⟨false, m, e⟩ < 2047 * 2 ^ 52 :=
      magnitudeBits_lt
    simp_all [UnpackedFloat.lt, UnpackedFloat.compare, UnpackedFloat.isNaN, IsStored,
      unpackedBits, Sign.apply]
  case infinity.negative.infinity.positive => rfl
  case infinity.negative.finite.positive | finite.negative.infinity.positive => omega
  case infinity.positive.finite.positive => exact (bits_lt sb.1 sb.2).le
  case finite.negative.infinity.negative => exact (bits_lt sa.1 sa.2).le
  case finite.negative.finite.positive =>
    have below := @bits_pos m₁ e₁ h₁
    omega

/-- **Doubles that are numbers compare like their signed bits.** -/
theorem lt_iff_signedBits {x y : Float} (hx : x.isNaN = false) (hy : y.isNaN = false) :
    x < y ↔ signedBits x < signedBits y := by
  rw [lt_unfold]
  exact unpacked_lt_iff_bits hx hy (isStored_unpack _) (isStored_unpack _)

theorem le_iff_signedBits {x y : Float} (hx : x.isNaN = false) (hy : y.isNaN = false) :
    x ≤ y ↔ signedBits x ≤ signedBits y := by
  rw [le_iff_not_lt, lt_iff_signedBits hy hx, not_lt, and_iff_right ⟨hx, hy⟩]

/-! ### Signed bits of rationals -/

/-- The signed bits of the double nearest to a rational. -/
def roundedBits (v : ℚ) : ℤ :=
  if v < 0 then -(nearestBits v.num.natAbs v.den : ℤ) else nearestBits v.num.natAbs v.den

/-- The bits of a quotient depend on the rational only. -/
theorem nearestBits_congr {num den num' den' : ℕ} (hd : 0 < den) (hd' : 0 < den')
    (same : (num : ℚ) / den = (num' : ℚ) / den') : nearestBits num den = nearestBits num' den' :=
  le_antisymm (nearestBits_mono hd hd' same.le) (nearestBits_mono hd' hd same.ge)

theorem natAbs_div_den {v : ℚ} (nonneg : 0 ≤ v) : (v.num.natAbs : ℚ) / v.den = v := by
  rw [Nat.cast_natAbs, abs_of_nonneg (Rat.num_nonneg.mpr nonneg), Rat.num_div_den]

theorem roundedBits_of_nonneg {v : ℚ} {num den : ℕ} (hd : 0 < den) (h : (num : ℚ) / den = v) :
    roundedBits v = nearestBits num den := by
  have nonneg : 0 ≤ v := h ▸ by positivity
  rw [roundedBits, if_neg (not_lt.mpr nonneg)]
  exact congrArg _ (nearestBits_congr v.den_pos hd ((natAbs_div_den nonneg).trans h.symm))

theorem roundedBits_neg (v : ℚ) : roundedBits (-v) = -roundedBits v := by
  have magnitude : nearestBits (-v).num.natAbs (-v).den = nearestBits v.num.natAbs v.den := by
    rw [Rat.neg_num, Rat.neg_den, Int.natAbs_neg]
  rw [roundedBits, roundedBits, magnitude]
  rcases lt_trichotomy v 0 with below | rfl | above
  · rw [if_neg (by linarith), if_pos below, neg_neg]
  · rfl
  · rw [if_pos (by linarith), if_neg (by linarith)]

theorem roundedBits_nonneg {v : ℚ} (nonneg : 0 ≤ v) : 0 ≤ roundedBits v := by
  rw [roundedBits, if_neg (not_lt.mpr nonneg)]
  exact Int.natCast_nonneg _

/-- **Greater rationals have greater signed bits.** -/
theorem roundedBits_mono {v w : ℚ} (h : v ≤ w) : roundedBits v ≤ roundedBits w := by
  have above : ∀ {v w : ℚ}, 0 ≤ v → v ≤ w → roundedBits v ≤ roundedBits w :=
    fun {v w} nonneg h => by
    rw [roundedBits_of_nonneg v.den_pos (natAbs_div_den nonneg),
      roundedBits_of_nonneg w.den_pos (natAbs_div_den (nonneg.trans h))]
    refine Int.ofNat_le.mpr (nearestBits_mono v.den_pos w.den_pos ?_)
    rwa [natAbs_div_den nonneg, natAbs_div_den (nonneg.trans h)]
  rcases le_total 0 v with nonneg | nonpos
  · exact above nonneg h
  rcases le_total 0 w with nonneg' | nonpos'
  · have lower := roundedBits_nonneg (neg_nonneg.mpr nonpos)
    rw [roundedBits_neg] at lower
    exact (by omega : roundedBits v ≤ 0).trans (roundedBits_nonneg nonneg')
  · have swapped := above (neg_nonneg.mpr nonpos') (neg_le_neg h)
    rw [roundedBits_neg, roundedBits_neg] at swapped
    exact neg_le_neg_iff.mp swapped

/-! ### Nearest doubles -/

/-- A rational under a sign. -/
def underSign (s : Sign) (v : ℚ) : ℚ :=
  match s with
  | .negative => -v
  | .positive => v

theorem roundedBits_underSign (s : Sign) (v : ℚ) :
    roundedBits (underSign s v) = s.apply (roundedBits v) := by
  cases s with
  | negative => exact roundedBits_neg v
  | positive => rfl

theorem underSign_neg (s : Sign) (v : ℚ) : underSign (-s) v = -underSign s v := by
  cases s with
  | negative => exact (neg_neg v).symm
  | positive => rfl

/-- An unpacked double that is the nearest to a rational, infinite if the rational is beyond all
doubles. -/
structure IsNearest (a : UnpackedFloat) (v : ℚ) : Prop where
  number : a.isNaN = false
  bits : unpackedBits a = roundedBits v

/-- **Nearest doubles keep the order of rationals.** -/
theorem IsNearest.le {x y : Float} {v w : ℚ} (hx : IsNearest x.toModel.unpack v)
    (hy : IsNearest y.toModel.unpack w) (h : v ≤ w) : x ≤ y := by
  rw [le_iff_signedBits hx.number hy.number, signedBits, signedBits, hx.bits, hy.bits]
  exact roundedBits_mono h

theorem isNearest_zero (s : Sign) : IsNearest (.zero s) 0 := ⟨rfl, rfl⟩

theorem isNearest_zero_float : IsNearest (0 : Float).toModel.unpack 0 := isNearest_zero .positive

/-- A form in which a double is kept is the nearest to its own value. -/
theorem isNearest_form {m : ℕ} {e : ℤ} (s : Sign) (pos : 0 < m)
    (regular : Regular m e) (top : e ≤ 971) :
    IsNearest (.finite s m e pos) (underSign s (m * 2 ^ e)) := by
  refine ⟨rfl, ?_⟩
  have bits := nearestBits_self (b := ⟨false, m, e⟩) regular top
  rw [roundedBits_underSign, roundedBits_of_nonneg oneUnits_pos (form_eq m regular.least).symm,
    bits]
  rfl

/-- The value of an unpacked double, zero if it is not finite. -/
def unpackedValue : UnpackedFloat → ℚ
  | .finite s m e _ => underSign s (m * 2 ^ e)
  | _ => 0

/-- The value of a double, zero if it is not finite. -/
def exactValue (x : Float) : ℚ := unpackedValue x.toModel.unpack

/-- Finite unpacked doubles. -/
theorem finite_cases {x : Float} (finite : x.isFinite = true) :
    (∃ s, x.toModel.unpack = .zero s) ∨
      ∃ s m e pos, x.toModel.unpack = .finite s m e pos ∧ Regular m e ∧ e ≤ 971 := by
  have finite : x.toModel.unpack.isFinite = true := finite
  cases h : x.toModel.unpack with
  | infinity s | notANumber =>
      rw [h] at finite
      cases finite
  | zero s => exact .inl ⟨s, rfl⟩
  | finite s m e pos => exact .inr ⟨s, m, e, pos, rfl, ofParts_regular ((unpack_eq _).symm.trans h)⟩

/-- **A finite double is the nearest to its own value.** -/
theorem isNearest_value {x : Float} (finite : x.isFinite = true) :
    IsNearest x.toModel.unpack (exactValue x) := by
  rw [exactValue]
  rcases finite_cases finite with ⟨s, h⟩ | ⟨s, m, e, pos, h, regular, top⟩ <;> rw [h]
  · exact isNearest_zero s
  · exact isNearest_form s pos regular top

theorem number_of_isFinite {x : Float} (finite : x.isFinite = true) : x.isNaN = false :=
  (isNearest_value finite).number

/-- The place of a finite double is told by its value. -/
theorem place_of_exactValue {x : Float} (finite : x.isFinite = true) :
    ∃ n : ℤ, unpackedPlace x.toModel.unpack = toLex (0, n) ∧ exactValue x = n / oneUnits := by
  rw [exactValue]
  rcases finite_cases finite with ⟨s, h⟩ | ⟨s, m, e, pos, h, regular, -⟩ <;> rw [h]
  · exact ⟨0, rfl, by rw [Int.cast_zero, zero_div]; rfl⟩
  · have value := form_eq m regular.least
    cases s with
    | negative =>
        refine ⟨-formUnits m e, rfl, (congrArg Neg.neg value).trans ?_⟩
        rw [Int.cast_neg, Int.cast_natCast, neg_div]
    | positive =>
        refine ⟨formUnits m e, rfl, value.trans ?_⟩
        rw [Int.cast_natCast]

/-- Finite doubles have the order of their values. -/
theorem le_iff_exactValue {x y : Float} (hx : x.isFinite = true) (hy : y.isFinite = true) :
    x ≤ y ↔ exactValue x ≤ exactValue y := by
  have hx' := number_of_isFinite hx
  have hy' := number_of_isFinite hy
  obtain ⟨m, place, value⟩ := place_of_exactValue hx
  obtain ⟨n, place', value'⟩ := place_of_exactValue hy
  have one : (0 : ℚ) < oneUnits := Nat.cast_pos.mpr oneUnits_pos
  rw [le_iff_not_lt, and_iff_right ⟨hx', hy'⟩, lt_unfold,
    unpacked_lt_iff_place hy' hx' (isRegular_unpack y) (isRegular_unpack x), place, place', not_lt,
    Number.toLex_zero_le, value, value', div_le_div_iff_of_pos_right one, Int.cast_le]

end Annealing
