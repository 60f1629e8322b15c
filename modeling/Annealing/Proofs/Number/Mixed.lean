import Annealing.Proofs.Number.Units
import Annealing.Value.Compare
import Mathlib.Tactic.Linarith

/-!
# Number — integers and doubles in one order

An integer of any size and a double are compared without rounding.  Like a double, an integer is a
multiple of the smallest positive double, so both have a *place* on one line: infinities outside,
and what is finite by its signed units (`Number.place`).

* `ofFloat_eq`: the parts that a double is opened into are those it is unpacked into.
* `eq_of_ofFloat_none`: a double without parts is one of three.
* `Number.below_iff`: of two numbers, one is below the other exactly if its place is.
-/

namespace Annealing

open Float.Model UnpackedFloat

/-- The parts of an unpacked double. -/
def unpackedParts : UnpackedFloat → Option Binary64
  | .finite s m e _ => some ⟨s == .negative, m, e⟩
  | .zero s => some ⟨s == .negative, 0, -1074⟩
  | .infinity _ | .notANumber => none

/-- The double of these parts, opened. -/
theorem unpackedParts_ofParts (s : Sign) (exponent : BitVec 11) (mantissa : BitVec 52) :
    unpackedParts (ofParts s exponent mantissa) =
      if exponent.toNat = 2047 then none
      else if exponent.toNat = 0 then some ⟨s == .negative, mantissa.toNat, -1074⟩
      else some ⟨s == .negative, 2 ^ 52 + mantissa.toNat, (exponent.toNat : ℤ) - 1075⟩ := by
  have infinite : exponent = 2047#11 ↔ exponent.toNat = 2047 := by
    rw [← BitVec.toNat_inj]
    rfl
  have small : exponent = 0#11 ↔ exponent.toNat = 0 := by
    rw [← BitVec.toNat_inj]
    rfl
  unfold ofParts
  by_cases top : exponent.toNat = 2047
  · rw [if_pos (infinite.mpr top), if_pos top]
    split <;> rfl
  · rw [if_neg (mt infinite.mp top), if_neg top]
    by_cases bottom : exponent.toNat = 0
    · rw [if_pos (small.mpr bottom), if_pos bottom]
      split
      next zero => rw [zero]; rfl
      next nonzero => simp only [unpackedParts, bottom]; rfl
    · rw [if_neg (mt small.mp bottom), if_neg bottom]
      simp only [unpackedParts, append_implicit]

/-- **The parts that a double is opened into are those it is unpacked into.** -/
theorem ofFloat_eq (x : Float) : Binary64.ofFloat? x = unpackedParts x.toModel.unpack := by
  have bits : x.toBits.toNat = x.toModel.toBits.toBitVec.toNat := rfl
  rw [Binary64.ofFloat?, bits]
  change _ = unpackedParts (UnpackedFloat.unpack Format.binary64 x.toModel.toBits.toBitVec)
  generalize x.toModel.toBits.toBitVec = b
  have mantissa : (@unpackMantissa Format.binary64 b).toNat = b.toNat % 2 ^ 52 := by
    change (BitVec.extractLsb 51 0 b).toNat = _
    rw [BitVec.extractLsb_toNat, Nat.shiftRight_zero]
  have exponent : (@unpackExponent Format.binary64 b).toNat = b.toNat / 2 ^ 52 % 2 ^ 11 := by
    change (BitVec.extractLsb 62 52 b).toNat = _
    rw [BitVec.extractLsb_toNat, Nat.shiftRight_eq_div_pow]
  have sign : (Sign.ofBitVec (@unpackSign Format.binary64 b) == .negative) =
      (b.toNat / 2 ^ 63 % 2 == 1) := by
    have bit : (@unpackSign Format.binary64 b).toNat = b.toNat / 2 ^ 63 % 2 := by
      change (BitVec.extractLsb 63 63 b).toNat = _
      rw [BitVec.extractLsb_toNat, Nat.shiftRight_eq_div_pow]
    rw [← bit]
    generalize @unpackSign Format.binary64 b = s
    revert s
    decide
  rw [unpack_eq, unpackedParts_ofParts, mantissa, exponent, sign]
  rfl

/-- Doubles that are unpacked into the same are the same. -/
theorem eq_of_unpack_eq {x y : Float} (h : x.toModel.unpack = y.toModel.unpack) : x = y := by
  have bits := (unpack_inj_of_valid x.toModel.valid y.toModel.valid).mp h
  exact Float.toBits_inj.mp (UInt64.toBitVec_inj.mp bits)

/-- A double without parts is infinite or the one that is no number. -/
theorem eq_of_ofFloat_none {x : Float} (h : Binary64.ofFloat? x = none) :
    x.isNaN = true ∧ x = 0 / 0 ∨ x.isNaN = false ∧ (x < 0 ∧ x = -1 / 0 ∨ ¬ x < 0 ∧ x = 1 / 0) := by
  rw [ofFloat_eq] at h
  cases unpacked : x.toModel.unpack with
  | notANumber =>
      have same : x = 0 / 0 := eq_of_unpack_eq (unpacked.trans rfl)
      exact .inl ⟨by rw [same]; decide +kernel, same⟩
  | infinity s =>
      refine .inr ?_
      cases s with
      | negative =>
          have same : x = -1 / 0 := eq_of_unpack_eq (unpacked.trans rfl)
          rw [same]
          decide +kernel
      | positive =>
          have same : x = 1 / 0 := eq_of_unpack_eq (unpacked.trans rfl)
          rw [same]
          decide +kernel
  | _ =>
      rw [unpacked] at h
      cases h

/-! ### Places -/

/-- The place of an unpacked double among all numbers. -/
def unpackedPlace : UnpackedFloat → ℤ ×ₗ ℤ
  | .infinity .negative => toLex (-1, 0)
  | .finite .negative m e _ => toLex (0, -(formUnits m e : ℤ))
  | .notANumber | .zero _ => toLex (0, 0)
  | .finite .positive m e _ => toLex (0, (formUnits m e : ℤ))
  | .infinity .positive => toLex (1, 0)

/-- What is finite is in its regular form. -/
def IsRegular : UnpackedFloat → Prop
  | .finite _ m e _ => Regular m e
  | _ => True

theorem isRegular_unpack (x : Float) : IsRegular x.toModel.unpack := by
  cases h : x.toModel.unpack with
  | finite s m e pos => exact (ofParts_regular ((unpack_eq _).symm.trans h)).1
  | _ => trivial

/-- Unpacked doubles that are numbers compare like their places. -/
theorem unpacked_lt_iff_place {a b : UnpackedFloat} (ha : a.isNaN = false) (hb : b.isNaN = false)
    (ra : IsRegular a) (rb : IsRegular b) : a.lt b = true ↔ unpackedPlace a < unpackedPlace b := by
  rcases a with (_ | _) | _ | _ | ⟨_ | _, m₁, e₁, h₁⟩ <;> rcases b with (_ | _)
    | _ | _ | ⟨_ | _, m₂, e₂, h₂⟩
  -- of two finite doubles of one sign the units decide, and of any others the shapes
  case finite.positive.finite.positive =>
    simp only [UnpackedFloat.lt, UnpackedFloat.compare, beq_iff_eq, Option.some.injEq,
      then_eq_lt_iff, unpackedPlace, Prod.Lex.toLex_lt_toLex, lt_irrefl, false_or, true_and,
      Int.ofNat_lt]
    exact (formUnits_lt_iff ra rb).symm
  case finite.negative.finite.negative =>
    simp only [UnpackedFloat.lt, UnpackedFloat.compare, beq_iff_eq, Option.some.injEq,
      Ordering.swap_eq_lt, then_eq_gt_iff, unpackedPlace, Prod.Lex.toLex_lt_toLex, lt_irrefl,
      false_or, true_and, neg_lt_neg_iff, Int.ofNat_lt]
    rw [formUnits_lt_iff rb ra]
    exact or_congr_right (and_congr_left' eq_comm)
  case finite.negative.finite.positive =>
    have below := formUnits_pos (e := e₁) h₁
    simp only [unpackedPlace, Prod.Lex.toLex_lt_toLex, lt_irrefl, false_or, true_and]
    exact iff_of_true rfl (by omega)
  all_goals
    have units_pos : ∀ {m e}, 0 < m → 0 < formUnits m e := formUnits_pos
    simp_all [UnpackedFloat.lt, UnpackedFloat.compare, UnpackedFloat.isNaN, unpackedPlace,
      Prod.Lex.toLex_lt_toLex]
  rfl

/-- The ratio of the parts of a finite double is that of its units to those of one. -/
theorem ratio_units (negative : Bool) (m : ℕ) {e : ℤ} (least : -1074 ≤ e) :
    (Binary64.ratio ⟨negative, m, e⟩).1 * oneUnits =
      formUnits m e * (Binary64.ratio ⟨negative, m, e⟩).2 := by
  have one := oneExponent_eq
  by_cases below : e < 0
  · have exponents : oneExponent = (e + 1074).toNat + (-e).toNat := by omega
    simp only [Binary64.ratio, if_pos below, formUnits, oneUnits]
    rw [exponents, Nat.pow_add, Nat.mul_assoc]
  · have exponents : (e + 1074).toNat = e.toNat + oneExponent := by omega
    simp only [Binary64.ratio, if_neg below, formUnits, oneUnits]
    rw [exponents, Nat.pow_add, Nat.mul_assoc, Nat.mul_one]

theorem ratio_pos (b : Binary64) : 0 < b.ratio.2 := by
  unfold Binary64.ratio
  split
  · exact Nat.two_pow_pos _
  · exact Nat.one_pos

/-- A finite double compares with an integer as its signed units do with those of the integer. -/
theorem compareInt_iff {b : Binary64} {n : ℤ}
    (same : b.signed b.ratio.1 * oneUnits = n * b.ratio.2) (k : ℤ) :
    (b.compareInt k = .lt ↔ n < k * oneUnits) ∧ (b.compareInt k = .gt ↔ k * oneUnits < n) := by
  have positive : (0 : ℤ) < oneUnits := Int.natCast_pos.mpr oneUnits_pos
  have positive' : (0 : ℤ) < b.ratio.2 := Int.natCast_pos.mpr (ratio_pos b)
  have swapped : k * b.ratio.2 * oneUnits = k * oneUnits * b.ratio.2 := Int.mul_right_comm _ _ _
  rw [Binary64.compareInt, Int.compare_eq_lt, Int.compare_eq_gt]
  constructor
  · rw [← Int.mul_lt_mul_right positive, same, swapped, Int.mul_lt_mul_right positive']
  · rw [← Int.mul_lt_mul_right positive, same, swapped, Int.mul_lt_mul_right positive']

/-- What a finite double is opened into has the units of its place. -/
theorem parts_units {a : UnpackedFloat} {b : Binary64} (regular : IsRegular a)
    (h : unpackedParts a = some b) :
    ∃ n : ℤ, unpackedPlace a = toLex (0, n) ∧ b.signed b.ratio.1 * oneUnits = n * b.ratio.2 := by
  cases a with
  | infinity s | notANumber => cases h
  | zero s =>
      cases h
      have nothing : Binary64.signed ⟨s == .negative, 0, -1074⟩
          (Binary64.ratio ⟨s == .negative, 0, -1074⟩).1 = 0 := by
        cases s <;> rfl
      exact ⟨0, rfl, by rw [nothing, Int.zero_mul, Int.zero_mul]⟩
  | finite s m e pos =>
      cases h
      have units := congrArg (Nat.cast (R := ℤ)) (ratio_units (s == .negative) m regular.least)
      rw [Int.natCast_mul, Int.natCast_mul] at units
      cases s with
      | positive => exact ⟨_, rfl, units⟩
      | negative =>
          refine ⟨_, rfl, ?_⟩
          rw [Int.neg_mul, ← units, ← Int.neg_mul]
          rfl

theorem any_lt_iff (o : Option Ordering) : o.any (· == .lt) = true ↔ o = some .lt := by
  rcases o with _ | _ | _ | _ <;> decide

/-! ### Two doubles -/

/-- **Two doubles compare as what they are unpacked into.** -/
theorem Number.compare_floats (x y : Float) :
    (Number.float x).compare? (.float y) = x.toModel.unpack.compare y.toModel.unpack := by
  have unfolded : (Number.float x).compare? (.float y) =
      if x < y then some .lt else if y < x then some .gt else if x == y then some .eq else none :=
        rfl
  have same : (x == y) = (x.toModel.unpack.compare y.toModel.unpack == some .eq) := rfl
  rw [unfolded, same]
  simp only [lt_unfold, UnpackedFloat.lt, unpacked_compare_swap x.toModel.unpack]
  rcases x.toModel.unpack.compare y.toModel.unpack with _ | _ | _ | _ <;> rfl

theorem Number.compare_eq_lt_iff {x y : Float} :
    (Number.float x).compare? (.float y) = some .lt ↔ x < y := by
  rw [compare_floats, lt_unfold, UnpackedFloat.lt, beq_iff_eq]

/-- A double compares above another one. -/
theorem Number.compare_eq_gt_iff {x y : Float} :
    (Number.float x).compare? (.float y) = some .gt ↔ x > y := by
  rw [compare_floats, gt_iff_lt, lt_unfold, UnpackedFloat.lt,
    unpacked_compare_swap x.toModel.unpack]
  rcases x.toModel.unpack.compare y.toModel.unpack with _ | _ | _ | _ <;> decide

/-- Doubles compare as numbers, in each of the relations. -/
theorem Value.relate_floats (relation : Relation) (x y : Float) :
    Value.relate relation (.float x) (.float y) =
    .ok (((Number.float x).compare? (.float y)).any relation.holds) := rfl

/-- Whether a double is above another one. -/
theorem Value.relate_greater (x y : Float) :
    Value.relate .greater (.float x) (.float y) = .ok (x > y) := by
  rw [relate_floats]
  refine congrArg Except.ok (Bool.eq_iff_iff.mpr ?_)
  rw [decide_eq_true_iff, ← Number.compare_eq_gt_iff]
  rcases (Number.float x).compare? (.float y) with _ | _ | _ | _ <;> decide

/-- Whether a double is below another one. -/
theorem Value.relate_less (x y : Float) :
    Value.relate .less (.float x) (.float y) = .ok (x < y) := by
  rw [relate_floats]
  refine congrArg Except.ok (Bool.eq_iff_iff.mpr ?_)
  rw [decide_eq_true_iff, ← Number.compare_eq_lt_iff]
  rcases (Number.float x).compare? (.float y) with _ | _ | _ | _ <;> decide

/-- Whether a double is at most another one. -/
theorem Value.relate_atMost (x y : Float) :
    Value.relate .atMost (.float x) (.float y) = .ok (x ≤ y) := by
  rw [relate_floats]
  refine congrArg Except.ok (Bool.eq_iff_iff.mpr ?_)
  rw [decide_eq_true_iff, le_unfold, UnpackedFloat.le, Number.compare_floats]
  rcases x.toModel.unpack.compare y.toModel.unpack with _ | _ | _ | _ <;> rfl

/-! ### One order -/

namespace Number

/-- The place of a number among all numbers. -/
def place : Number → ℤ ×ₗ ℤ
  | .int n => toLex (0, n * oneUnits)
  | .float x => unpackedPlace x.toModel.unpack

/-- Whether a number is none. -/
def isNaN : Number → Bool
  | .int _ => false
  | .float x => x.isNaN

/-- A double compares with an integer as its place does with that of the integer. -/
theorem compareFloatInt_iff {x : Float} (hx : x.isNaN = false) (k : ℤ) :
    (compareFloatInt x k = some .lt ↔ place (.float x) < place (.int k)) ∧
      (compareFloatInt x k = some .gt ↔ place (.int k) < place (.float x)) := by
  have regular := isRegular_unpack x
  unfold compareFloatInt
  rw [ofFloat_eq]
  simp only [place]
  cases parts : unpackedParts x.toModel.unpack with
  | some b =>
      obtain ⟨n, at_n, same⟩ := parts_units regular parts
      rw [at_n]
      simp only [Option.some.injEq, Prod.Lex.toLex_lt_toLex, lt_irrefl, false_or, true_and]
      exact compareInt_iff same k
  | none =>
      have number : x.toModel.unpack.isNaN = false := hx
      have below : x < 0 ↔ x.toModel.unpack.lt (.zero .positive) = true := lt_unfold
      simp only [hx, if_neg Bool.false_ne_true, below]
      rcases h : x.toModel.unpack with (_ | _) | _ | s | ⟨s, m, e, pos⟩ <;> rw [h] at parts number
      case infinity.negative =>
        have left : toLex (-1, 0) < toLex ((0 : ℤ), k * (oneUnits : ℤ)) :=
          Prod.Lex.toLex_lt_toLex.mpr (.inl (Int.negSucc_lt_zero 0))
        exact ⟨iff_of_true rfl left, iff_of_false nofun (lt_asymm left)⟩
      case infinity.positive =>
        have right : toLex ((0 : ℤ), k * (oneUnits : ℤ)) < toLex (1, 0) :=
          Prod.Lex.toLex_lt_toLex.mpr (.inl Int.one_pos)
        exact ⟨iff_of_false nofun (lt_asymm right), iff_of_true rfl right⟩
      all_goals cases parts
      cases number

/-- **Of two numbers, one is below the other exactly if its place is.** -/
theorem below_iff {a b : Number} (ha : a.isNaN = false) (hb : b.isNaN = false) :
    a.compare? b = some .lt ↔ a.place < b.place := by
  cases a with
  | int m =>
      cases b with
      | int n =>
          have positive : (0 : ℤ) < oneUnits := Int.natCast_pos.mpr oneUnits_pos
          simp only [compare?, Option.some.injEq, Int.compare_eq_lt, place, Prod.Lex.toLex_lt_toLex,
            lt_irrefl, false_or, true_and, Int.mul_lt_mul_right positive]
      | float y =>
          have swapped : (compareFloatInt y m).map Ordering.swap = some .lt ↔
              compareFloatInt y m = some .gt := by
            rcases compareFloatInt y m with _ | _ | _ | _ <;> decide
          exact swapped.trans (compareFloatInt_iff hb m).2
  | float x =>
      cases b with
      | int n => exact (compareFloatInt_iff ha n).1
      | float y =>
          rw [compare_eq_lt_iff, lt_unfold]
          exact unpacked_lt_iff_place ha hb (isRegular_unpack x) (isRegular_unpack y)

/-- An integer is below the double zero exactly if it is negative. -/
theorem int_below_zero (n : ℤ) :
    ((Number.int n).compare? (.float 0)).any (· == .lt) = true ↔ n < 0 := by
  have zero : (Number.float 0).place = toLex (0, 0) := rfl
  have positive : (0 : ℤ) < oneUnits := Int.natCast_pos.mpr oneUnits_pos
  have scaled : n * oneUnits < 0 * oneUnits ↔ n < 0 := Int.mul_lt_mul_right positive
  rw [Int.zero_mul] at scaled
  rw [any_lt_iff, below_iff rfl rfl, zero]
  simp only [place, Prod.Lex.toLex_lt_toLex, lt_irrefl, false_or, true_and, scaled]

end Number

end Annealing
