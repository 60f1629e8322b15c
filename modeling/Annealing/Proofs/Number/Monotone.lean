import Annealing.Proofs.Number.Mixed
import Annealing.Proofs.Number.Nearest
import Annealing.Number.Power

/-!
# Number — rounding keeps the order

A greater quotient is not rounded to a lesser double (`Binary64.nearestBits_mono`), and a double is
the nearest to itself.  So nothing is rounded past a double: what is at most a double stays at most
that double (`Binary64.nearestBits_le`), and what is at least one stays at least that one
(`Binary64.le_nearestBits`).  An integer that is at most a double is not brought to a greater one
(`Number.place_ofInt_le`).  Of two integers this is not so: an integer may be brought to a double
above another integer that it is at most itself.

* `Binary64.magnitudeBits_le_iff`: doubles of one sign have the order of their bits.
* `Number.place_of_parts`: the place of a finite double is told by its parts.
* `Number.place_ofInt_of_small`: integers of 53 binary digits are doubles, so they are not rounded
  at all.
-/

namespace Annealing

open Float.Model UnpackedFloat

namespace Binary64

/-! ### Order of quotients -/

section

variable {num den : ℕ} (hd : 0 < den) {k : ℤ}

include hd

/-- On its grid or a coarser one, a quotient has at most 53 binary digits. -/
theorem scaleNearest_le_full {grid : ℤ}
    (high : (num : ℚ) / den < 2 ^ (k + 53)) (coarse : k ≤ grid) :
    scaleNearest num den grid ≤ 2 ^ 53 := by
  refine scaleNearest_le hd ?_
  rw [div_le_iff₀ (by positivity)]
  calc (num : ℚ) / den ≤ 2 ^ (k + 53) := high.le
    _ ≤ 2 ^ (53 + grid) := zpow_le_zpow_right₀ one_le_two (by omega)
    _ = ((2 ^ 53 : ℕ) : ℚ) * 2 ^ grid := by rw [zpow_add₀ (by norm_num)]; norm_num

/-- On its grid, a quotient has no less than 53 binary digits. -/
theorem full_le_scaleNearest (low : (2 : ℚ) ^ (k + 52) ≤ (num : ℚ) / den) :
    2 ^ 52 ≤ scaleNearest num den k := by
  refine le_scaleNearest hd ?_
  rw [le_div_iff₀ (by positivity)]
  calc ((2 ^ 52 : ℕ) : ℚ) * 2 ^ k = 2 ^ (k + 52) := by
        rw [zpow_add₀ (by norm_num)]; norm_num [mul_comm]
    _ ≤ (num : ℚ) / den := low

/-- **A greater quotient is not brought to a lesser double.** -/
theorem nearestBits_mono {num' den' : ℕ} (hd' : 0 < den')
    (h : (num : ℚ) / den ≤ (num' : ℚ) / den') :
    nearestBits num den ≤ nearestBits num' den' := by
  rcases Nat.eq_zero_or_pos num with rfl | hn
  · exact Nat.zero_le _
  have positive : (0 : ℚ) < (num' : ℚ) / den' :=
    (div_pos (Nat.cast_pos.mpr hn) (Nat.cast_pos.mpr hd)).trans_le h
  have hn' : 0 < num' := by
    have := (div_pos_iff_of_pos_right (Nat.cast_pos.mpr hd')).mp positive
    exact_mod_cast this
  obtain ⟨k, low, high, grid⟩ := gridExponent_spec hn hd
  obtain ⟨k', low', high', grid'⟩ := gridExponent_spec hn' hd'
  have coarser : k ≤ k' := by
    have := (zpow_lt_zpow_iff_right₀ one_lt_two).mp (low.trans_lt (h.trans_lt high'))
    omega
  simp only [nearestBits, if_neg hn.ne', if_neg hn'.ne', grid, grid']
  refine min_le_min_right _ ?_
  by_cases same : max k (-1074) = max k' (-1074)
  · rw [same]
    exact Nat.add_le_add_left (scaleNearest_mono hd hd' _ h) _
  · -- on a coarser grid, the greater quotient is beyond all that the grid of the lesser one has
    have digits : scaleNearest num den (max k (-1074)) ≤ 2 ^ 53 :=
      scaleNearest_le_full hd high (le_max_left _ _)
    have digits' : 2 ^ 52 ≤ scaleNearest num' den' (max k' (-1074)) := by
      rw [max_eq_left (by omega : -1074 ≤ k')]
      exact full_le_scaleNearest hd' low'
    omega

end

/-! ### Bounds on doubles -/

/-- Finite doubles of one sign have the order of their bits. -/
theorem magnitudeBits_le_iff {b c : Binary64} (hb : Regular b.mantissa b.exponent)
    (hc : Regular c.mantissa c.exponent) :
    b.magnitudeBits ≤ c.magnitudeBits ↔
    formUnits b.mantissa b.exponent ≤ formUnits c.mantissa c.exponent := by
  have hb' := hb.full
  have hc' := hc.full
  have := hb.below
  have := hc.below
  have := hb.least
  have := hc.least
  rw [← not_lt, ← not_lt, not_iff_not, formUnits_lt_iff hc hb, magnitudeBits, magnitudeBits]
  omega

/-- Forms of one value have the same bits. -/
theorem magnitudeBits_congr {b c : Binary64} (hb : Regular b.mantissa b.exponent)
    (hc : Regular c.mantissa c.exponent)
    (same : formUnits b.mantissa b.exponent = formUnits c.mantissa c.exponent) :
    b.magnitudeBits = c.magnitudeBits :=
  le_antisymm ((magnitudeBits_le_iff hb hc).mpr same.le) ((magnitudeBits_le_iff hc hb).mpr same.ge)

/-- The value of a form, by its units. -/
theorem form_eq (m : ℕ) {e : ℤ} (least : -1074 ≤ e) :
    (m : ℚ) * 2 ^ e = formUnits m e / oneUnits := by
  have one := oneExponent_eq
  obtain ⟨n, hn⟩ : ∃ n : ℕ, e + 1074 = n := ⟨(e + 1074).toNat, by omega⟩
  have exponent : e = n - (oneExponent : ℤ) := by omega
  rw [formUnits, hn, Int.toNat_natCast, exponent, zpow_sub₀ (by norm_num), oneUnits]
  push_cast
  rw [zpow_natCast, zpow_natCast, mul_div_assoc]

/-- A double is the nearest to itself. -/
theorem rounds_self (b : Binary64) : b.Rounds (b.mantissa * 2 ^ b.exponent) := by
  have scaled : (b.mantissa : ℚ) * 2 ^ b.exponent / 2 ^ b.exponent = b.mantissa :=
    mul_div_cancel_right₀ _ (zpow_ne_zero _ two_ne_zero)
  have gap := b.lowGap_pos
  refine ⟨?_, ?_, fun _ => ⟨?_, ?_⟩⟩ <;> rw [scaled] <;> linarith

section

variable {b : Binary64} (regular : Regular b.mantissa b.exponent) (top : b.exponent ≤ 971)

include regular top

/-- The bits of a double are those of its own value. -/
theorem nearestBits_self :
    nearestBits (formUnits b.mantissa b.exponent) oneUnits = b.magnitudeBits := by
  rcases Nat.eq_zero_or_pos b.mantissa with none | some
  · have bottom : b.exponent = -1074 := regular.full.resolve_left (by omega)
    have zero : formUnits b.mantissa b.exponent = 0 := by rw [none, formUnits, Nat.zero_mul]
    rw [zero, magnitudeBits, none, bottom]
    rfl
  · refine nearestBits_of_rounds regular top some oneUnits_pos ?_
    rw [← form_eq b.mantissa regular.least]
    exact rounds_self b

variable {num den : ℕ} (hd : 0 < den)

include hd

/-- **What is at most a double is not rounded above it.** -/
theorem nearestBits_le (h : (num : ℚ) / den ≤ b.mantissa * 2 ^ b.exponent) :
    nearestBits num den ≤ b.magnitudeBits := by
  rw [form_eq b.mantissa regular.least] at h
  rw [← nearestBits_self regular top]
  exact nearestBits_mono hd oneUnits_pos h

/-- **What is at least a double is not rounded below it.** -/
theorem le_nearestBits (h : b.mantissa * 2 ^ b.exponent ≤ (num : ℚ) / den) :
    b.magnitudeBits ≤ nearestBits num den := by
  rw [form_eq b.mantissa regular.least] at h
  rw [← nearestBits_self regular top]
  exact nearestBits_mono oneUnits_pos hd h

end

/-! ### Integers as doubles -/

/-- A pattern of bits is kept, unless it is one of those that stand for no number. -/
theorem packed_ofBits (bits : UInt64) : (Float.ofBits bits).toBits.toBitVec =
    if @isNaNBits Format.binary64 bits.toBitVec then packedNaN Format.binary64 else bits.toBitVec :=
  @pack_unpack Format.binary64 bits.toBitVec (by decide)

/-- A pattern of bits is kept, unless its double is no number. -/
theorem toBits_ofBits {bits : UInt64} {c : Binary64} (h : ofFloat? (Float.ofBits bits) = some c) :
    (Float.ofBits bits).toBits = bits := by
  have packed := packed_ofBits bits
  by_cases undefined : @isNaNBits Format.binary64 bits.toBitVec = true
  · rw [if_pos undefined] at packed
    have bits_eq : (Float.ofBits bits).toBits.toNat = (packedNaN Format.binary64).toNat :=
      congrArg BitVec.toNat packed
    rw [ofFloat?, bits_eq] at h
    cases h
  · rw [if_neg undefined] at packed
    exact UInt64.toBitVec_inj.mp packed

theorem nearestBits_le_infinite (num den : ℕ) : nearestBits num den ≤ 2047 * 2 ^ 52 := by
  unfold nearestBits
  split
  · decide
  · exact min_le_right _ _

theorem nearestBits_lt (num den : ℕ) : nearestBits num den < 2 ^ 63 :=
  (nearestBits_le_infinite num den).trans_lt (by decide)

/-- Bits up to those of infinity are those of a number. -/
theorem number_ofBits {bits : UInt64} (low : bits.toNat % 2 ^ 63 ≤ 2047 * 2 ^ 52) :
    (Float.ofBits bits).isNaN = false := by
  have clean : @isNaNBits Format.binary64 bits.toBitVec = false := by
    rw [isNaNBits, decide_eq_false_iff_not]
    rintro ⟨exponent, mantissa⟩
    have top : (BitVec.extractLsb 62 52 bits.toBitVec).toNat = 2047 :=
      congrArg BitVec.toNat exponent
    rw [BitVec.extractLsb_toNat, Nat.shiftRight_eq_div_pow] at top
    refine mantissa (BitVec.eq_of_toNat_eq ?_)
    change (BitVec.extractLsb 51 0 bits.toBitVec).toNat = 0
    rw [BitVec.extractLsb_toNat, Nat.shiftRight_zero]
    rw [UInt64.toNat_toBitVec] at top ⊢
    omega
  have packed := packed_ofBits bits
  rw [clean, if_neg Bool.false_ne_true] at packed
  rw [Bool.eq_false_iff]
  intro undefined
  have parts : ofFloat? (Float.ofBits bits) = none := by
    rw [ofFloat_eq]
    cases h : (Float.ofBits bits).toModel.unpack with
    | notANumber => rfl
    | _ =>
        change (Float.ofBits bits).toModel.unpack.isNaN = true at undefined
        rw [h] at undefined
        cases undefined
  rcases eq_of_ofFloat_none parts with ⟨-, same⟩ | ⟨number, -⟩
  · rw [same] at packed
    have same_bits : bits.toNat = 0x7FF8000000000000 := (congrArg BitVec.toNat packed).symm
    rw [same_bits] at low
    exact absurd low (by decide)
  · rw [undefined] at number
    cases number

/-- What is rounded is a number. -/
theorem number_nearest (negative : Bool) (num den : ℕ) :
    (nearest negative num den).isNaN = false := by
  have high := nearestBits_le_infinite num den
  refine number_ofBits ?_
  cases negative
  · rw [if_neg Bool.false_ne_true, UInt64.toNat_ofNat']
    omega
  · rw [if_pos rfl, UInt64.toNat_ofNat']
    omega

theorem number_ofInt (n : ℤ) : (ofInt n).isNaN = false := number_nearest _ _ _

theorem number_ofDecimal (negative : Bool) (digits : ℕ) (exponent : ℤ) :
    (ofDecimal negative digits exponent).isNaN = false := by
  simp only [ofDecimal]
  split_ifs <;> exact number_nearest _ _ _

/-- The parts of the double that an integer is brought to. -/
theorem parts_ofInt {a : ℤ} {c : Binary64} (h : ofFloat? (ofInt a) = some c) :
    Regular c.mantissa c.exponent ∧ c.negative = decide (a < 0) ∧
    c.magnitudeBits = nearestBits a.natAbs 1 := by
  have unfolded : ofInt a =
      Float.ofBits (UInt64.ofNat (if a < 0 then 2 ^ 63 + nearestBits a.natAbs 1
        else nearestBits a.natAbs 1)) := by
    simp only [ofInt, nearest, decide_eq_true_eq]
  have kept := toBits_ofBits (unfolded ▸ h)
  rw [← unfolded] at kept
  obtain ⟨regular, top, same⟩ := bits_of_parts (ofInt a).toBits.toNat_lt h
  have small := nearestBits_lt a.natAbs 1
  have inner : c.magnitudeBits < 2 ^ 63 := by
    have := regular.below
    rw [magnitudeBits]
    omega
  rw [kept, UInt64.toNat_ofNat'] at same
  refine ⟨regular, ?_⟩
  by_cases negative : a < 0
  · rw [if_pos negative, Nat.mod_eq_of_lt (by omega)] at same
    rw [decide_eq_true negative]
    cases sign : c.negative with
    | true => exact ⟨rfl, by rw [sign, if_pos rfl] at same; omega⟩
    | false =>
        rw [sign, if_neg Bool.false_ne_true] at same
        omega
  · rw [if_neg negative, Nat.mod_eq_of_lt (by omega)] at same
    rw [decide_eq_false negative]
    cases sign : c.negative with
    | true =>
        rw [sign, if_pos rfl] at same
        omega
    | false => exact ⟨rfl, by rw [sign, if_neg Bool.false_ne_true] at same; exact same.symm⟩

end Binary64

open Binary64

namespace Number

/-- **The place of a finite double**, told by the parts it is opened into. -/
theorem place_of_parts {x : Float} {b : Binary64} (h : ofFloat? x = some b) :
    place (.float x) = toLex (0, b.signed (formUnits b.mantissa b.exponent)) := by
  rw [ofFloat_eq] at h
  rw [place]
  rcases unpacked : x.toModel.unpack with _ | _ | s
    | ⟨s, m, e, pos⟩ <;> rw [unpacked] at h <;> cases h
  · cases s <;> simp [unpackedPlace, signed, formUnits]
  · cases s <;> rfl

theorem toLex_zero_le {m n : ℤ} : toLex ((0 : ℤ), m) ≤ toLex ((0 : ℤ), n) ↔ m ≤ n := by
  simp [Prod.Lex.toLex_le_toLex]

section

variable {n : ℕ} {b : Binary64} (regular : Regular b.mantissa b.exponent) (top : b.exponent ≤ 971)

/-- The value of a natural number, by its units. -/
theorem natural_eq (n : ℕ) : (n : ℚ) / (1 : ℕ) = ((n * oneUnits : ℕ) : ℚ) / oneUnits := by
  have one : (oneUnits : ℚ) ≠ 0 := Nat.cast_ne_zero.mpr oneUnits_pos.ne'
  rw [Nat.cast_mul, mul_div_cancel_right₀ _ one, Nat.cast_one, div_one]

include regular top

theorem nearestBits_natural_le (h : n * oneUnits ≤ formUnits b.mantissa b.exponent) :
    nearestBits n 1 ≤ b.magnitudeBits := by
  refine nearestBits_le regular top Nat.one_pos ?_
  rw [natural_eq, form_eq b.mantissa regular.least]
  gcongr

theorem le_nearestBits_natural (h : formUnits b.mantissa b.exponent ≤ n * oneUnits) :
    b.magnitudeBits ≤ nearestBits n 1 := by
  refine le_nearestBits regular top Nat.one_pos ?_
  rw [natural_eq, form_eq b.mantissa regular.least]
  gcongr

end

/-- **An integer that is at most a double is not brought to a greater one.** -/
theorem place_ofInt_le {a : ℤ} {c : Binary64} (finite : ofFloat? (ofInt a) = some c) {y : Float}
    (number : y.isNaN = false) (h : place (.int a) ≤ place (.float y)) :
    place (.float (ofInt a)) ≤ place (.float y) := by
  obtain ⟨regular, sign, bits⟩ := parts_ofInt finite
  rw [place_of_parts finite]
  cases parts : ofFloat? y with
  | none =>
      rcases eq_of_ofFloat_none parts with ⟨undefined, -⟩ | ⟨-, ⟨-, rfl⟩ | ⟨-, rfl⟩⟩
      · rw [number] at undefined
        cases undefined
      · have bottom : place (.float (-1 / 0)) = toLex (-1, 0) := by decide +kernel
        rw [bottom, place, Prod.Lex.toLex_le_toLex] at h
        omega
      · have top : place (.float (1 / 0)) = toLex (1, 0) := by decide +kernel
        rw [top]
        exact Prod.Lex.toLex_le_toLex.mpr (.inl Int.one_pos)
  | some b =>
      obtain ⟨regular', top, -⟩ := bits_of_parts y.toBits.toNat_lt parts
      rw [place_of_parts parts] at h ⊢
      rw [place, toLex_zero_le] at h
      rw [toLex_zero_le]
      have scaled : (a.natAbs : ℤ) * oneUnits = (a.natAbs * oneUnits : ℕ) :=
        (Int.natCast_mul _ _).symm
      simp only [signed, sign] at h ⊢
      by_cases negative : a < 0
      · -- below zero, the greater magnitude is that of the lesser number
        have value : a * oneUnits = -((a.natAbs : ℤ) * oneUnits) := by
          rw [Int.ofNat_natAbs_of_nonpos negative.le, Int.neg_mul, neg_neg]
        rw [if_pos (decide_eq_true negative)]
        cases below : b.negative with
        | false =>
            rw [if_neg Bool.false_ne_true]
            omega
        | true =>
            rw [below, if_pos rfl, value, scaled] at h
            have least := @le_nearestBits_natural a.natAbs b regular' top (by omega)
            rw [← bits, magnitudeBits_le_iff regular' regular] at least
            rw [if_pos rfl]
            omega
      · have value : a * oneUnits = (a.natAbs : ℤ) * oneUnits := by
          rw [Int.natAbs_of_nonneg (not_lt.mp negative)]
        rw [if_neg (by rw [decide_eq_false negative]; exact Bool.false_ne_true)]
        rw [value, scaled] at h
        have atMost : a.natAbs * oneUnits ≤ formUnits b.mantissa b.exponent := by
          split at h <;> omega
        have greatest := nearestBits_natural_le regular' top atMost
        rw [← bits, magnitudeBits_le_iff regular regular'] at greatest
        split at h
        · next below => rw [if_pos below]; omega
        · next above => rw [if_neg above]; omega

/-! ### Integers that are doubles -/

/-- A natural number of 53 binary digits has a form. -/
theorem exists_form {n : ℕ} (small : n < 2 ^ 53) :
    ∃ m e, Regular m e ∧ e ≤ 971 ∧ formUnits m e = n * oneUnits := by
  have one := oneExponent_eq
  rcases Nat.eq_zero_or_pos n with rfl | pos
  · exact ⟨0, -1074,
      ⟨by decide, le_rfl, .inr rfl⟩, by decide, by rw [formUnits, Nat.zero_mul, Nat.zero_mul]⟩
  obtain ⟨low, high⟩ : 2 ^ n.log2 ≤ n ∧ n < 2 ^ (n.log2 + 1) := (Nat.log2_eq_iff pos.ne').mp rfl
  have digits : n.log2 < 53 := (Nat.log2_lt pos.ne').mpr small
  refine ⟨n * 2 ^ (52 - n.log2), n.log2 - 52, ⟨?_, by omega, .inl ?_⟩, by omega, ?_⟩
  · calc n * 2 ^ (52 - n.log2) < 2 ^ (n.log2 + 1) * 2 ^ (52 - n.log2) :=
          Nat.mul_lt_mul_of_pos_right high (Nat.two_pow_pos _)
      _ = 2 ^ 53 := by rw [← Nat.pow_add]; congr 1; omega
  · calc 2 ^ 52 = 2 ^ n.log2 * 2 ^ (52 - n.log2) := by rw [← Nat.pow_add]; congr 1; omega
      _ ≤ n * 2 ^ (52 - n.log2) := Nat.mul_le_mul_right _ low
  · rw [formUnits, Nat.mul_assoc, ← Nat.pow_add, oneUnits]
    congr 2
    omega

/-- **Integers of 53 binary digits are doubles.** -/
theorem place_ofInt_of_small {a : ℤ} (small : a.natAbs < 2 ^ 53) {c : Binary64}
    (finite : ofFloat? (ofInt a) = some c) :
    place (.float (ofInt a)) = place (.int a) := by
  obtain ⟨regular, sign, bits⟩ := parts_ofInt finite
  obtain ⟨m, e, form, top, value⟩ := exists_form small
  have same : c.magnitudeBits = Binary64.magnitudeBits ⟨false, m, e⟩ := by
    rw [bits]
    exact le_antisymm (nearestBits_natural_le (b := ⟨false, m, e⟩) form top value.ge)
      (le_nearestBits_natural (b := ⟨false, m, e⟩) form top value.le)
  have units : formUnits c.mantissa c.exponent = a.natAbs * oneUnits := by
    rw [← value]
    exact le_antisymm ((magnitudeBits_le_iff (c := ⟨false, m, e⟩) regular form).mp same.le)
      ((magnitudeBits_le_iff (b := ⟨false, m, e⟩) form regular).mp same.ge)
  rw [place_of_parts finite, place, units, signed, sign, Int.natCast_mul]
  by_cases negative : a < 0
  · rw [if_pos (decide_eq_true negative), Int.ofNat_natAbs_of_nonpos negative.le, Int.neg_mul,
      neg_neg]
  · rw [decide_eq_false negative, if_neg Bool.false_ne_true,
      Int.natAbs_of_nonneg (not_lt.mp negative)]

end Number

end Annealing
