import Annealing.Proofs.Number.Order
import Mathlib.Tactic.Ring
import Annealing.Number.Power

/-!
# Number — finite doubles as integers

Every finite double is a multiple of the smallest positive one, `2 ^ -1074`.  How many times as
large it is are its *units* (`units`), a natural number.

A double is kept as a mantissa and an exponent, and a number that has several such forms is kept in
the one with the largest mantissa below `2 ^ 53` that the range of exponents allows (`Regular`).  So
doubles at or above zero compare as their units do (`lt_iff_units`), and packing a regular form
loses nothing (`unpack_pack`).
-/

namespace Annealing

open Float.Model UnpackedFloat

/-- The form in which a finite double is kept. -/
structure Regular (m : ℕ) (e : ℤ) : Prop where
  below : m < 2 ^ 53
  least : -1074 ≤ e
  full : 2 ^ 52 ≤ m ∨ e = -1074

/-- How many times as large as `2 ^ -1074` the number of this form is. -/
def formUnits (m : ℕ) (e : ℤ) : ℕ := m * 2 ^ (e + 1074).toNat

/-- The units of an unpacked double, zero if it is not finite. -/
def unpackedUnits : UnpackedFloat → ℕ
  | .finite _ m e _ => formUnits m e
  | _ => 0

/-- How many times as large as the smallest positive double a finite one is, up to the sign. -/
def units (x : Float) : ℕ := unpackedUnits x.toModel.unpack

/-- One is this power of two times the smallest positive double. -/
@[irreducible]
def oneExponent : ℕ := 1074

/-- The units of one. -/
def oneUnits : ℕ := 2 ^ oneExponent

/-! ### Unpacking -/

theorem append_implicit (v : BitVec 52) : (1#1 ++ v).toNat = 2 ^ 52 + v.toNat := by
  rw [BitVec.toNat_append, ← Nat.shiftLeft_add_eq_or_of_lt v.isLt]
  rfl

/-- The double of these parts. -/
def ofParts (s : Sign) (exponent : BitVec 11) (mantissa : BitVec 52) : UnpackedFloat :=
  if exponent = 2047#11 then if mantissa = 0#52 then .infinity s else .notANumber
  else if exponent = 0#11 then
    if h : mantissa = 0#52 then .zero s
    else .finite s mantissa.toNat (exponent.toNat - 1075 + 1) (BitVec.toNat_pos_of_ne_zero h)
  else .finite s (1#1 ++ mantissa).toNat (exponent.toNat - 1075) (by rw [append_implicit]; omega)

theorem unpack_eq (b : BitVec 64) : UnpackedFloat.unpack Format.binary64 b =
    ofParts (Sign.ofBitVec (@unpackSign Format.binary64 b)) (@unpackExponent Format.binary64 b)
      (@unpackMantissa Format.binary64 b) := rfl

/-- Unpacked doubles are regular, and their exponents are bounded. -/
theorem ofParts_regular {s s' : Sign} {exponent : BitVec 11} {mantissa : BitVec 52} {m : ℕ} {e : ℤ}
    {pos : 0 < m} (h : ofParts s exponent mantissa = .finite s' m e pos) :
    Regular m e ∧ e ≤ 971 := by
  have hm : mantissa.toNat < 2 ^ 52 := mantissa.isLt
  have he : exponent.toNat < 2048 := exponent.isLt
  unfold ofParts at h
  split at h
  · split at h <;> cases h
  next finite =>
    split at h
    next subnormal =>
      split at h
      · cases h
      · cases h
        rw [subnormal]
        exact ⟨⟨by omega, by decide, .inr rfl⟩, by decide⟩
    next normal =>
      have top : exponent.toNat ≠ 2047 := fun heq => finite (BitVec.eq_of_toNat_eq heq)
      have bottom : exponent.toNat ≠ 0 := fun heq => normal (BitVec.eq_of_toNat_eq heq)
      cases h
      rw [append_implicit]
      exact ⟨⟨by omega, by omega, .inl (Nat.le_add_right _ _)⟩, by omega⟩

/-! ### Packing -/

theorem unpack_packComponents (s : Sign) (exponent : BitVec 11) (mantissa : BitVec 52) :
    UnpackedFloat.unpack Format.binary64 (packComponents Format.binary64 s exponent mantissa) =
      ofParts s exponent mantissa := by
  have bit : unpackSign (packComponents Format.binary64 s exponent mantissa) = s.toBitVec := by
    change (s.toBitVec ++ exponent ++ mantissa).extractLsb' 63 1 = s.toBitVec
    rw [BitVec.extractLsb'_append_eq_of_le (by decide),
      BitVec.extractLsb'_append_eq_of_le (by decide)]
    cases s <;> rfl
  have sign : Sign.ofBitVec s.toBitVec = s := by cases s <;> rfl
  rw [unpack_eq, bit, sign, unpackExponent_packComponents, unpackMantissa_packComponents]

theorem pack_eq (s : Sign) (m : ℕ) (e : ℤ) (pos : 0 < m) :
    UnpackedFloat.pack Format.binary64 (.finite s m e pos) =
      if 2048 ≤ (e + 1023 + 52).toNat + 1 then packedInfinity Format.binary64 s
      else if m.log2 + 1 = 53 then
        packComponents Format.binary64 s (BitVec.ofNat 11 (e + 1023 + 52).toNat) (BitVec.ofNat 52 m)
      else packComponents Format.binary64 s 0#11 (BitVec.ofNat 52 m) := rfl

theorem unpack_pack_zero (s : Sign) :
    UnpackedFloat.unpack Format.binary64 (UnpackedFloat.pack Format.binary64 (.zero s)) =
      .zero s := by
  cases s <;> rfl

/-- **Packing a regular form loses nothing.** -/
theorem unpack_pack {s : Sign} {m : ℕ} {e : ℤ} (pos : 0 < m)
    (regular : Regular m e) (bounded : e ≤ 971) :
    UnpackedFloat.unpack Format.binary64 (UnpackedFloat.pack Format.binary64 (.finite s m e pos)) =
      .finite s m e pos := by
  obtain ⟨below, least, full⟩ := regular
  have log : m.log2 + 1 = 53 ↔ 2 ^ 52 ≤ m := by
    rw [show 53 = 52 + 1 from rfl, Nat.add_right_cancel_iff, Nat.log2_eq_iff pos.ne']
    exact ⟨And.left, fun h => ⟨h, below⟩⟩
  rw [pack_eq, if_neg (by omega)]
  by_cases normal : 2 ^ 52 ≤ m
  · have field : (BitVec.ofNat 11 (e + 1023 + 52).toNat).toNat = (e + 1023 + 52).toNat := by
      rw [BitVec.toNat_ofNat]
      omega
    have finite : BitVec.ofNat 11 (e + 1023 + 52).toNat ≠ 2047#11 := by
      intro h
      have value : (e + 1023 + 52).toNat = 2047 := field.symm.trans (congrArg BitVec.toNat h)
      omega
    have implicit : BitVec.ofNat 11 (e + 1023 + 52).toNat ≠ 0#11 := by
      intro h
      have value : (e + 1023 + 52).toNat = 0 := field.symm.trans (congrArg BitVec.toNat h)
      omega
    have fraction : (1#1 ++ BitVec.ofNat 52 m).toNat = m := by
      rw [append_implicit, BitVec.toNat_ofNat]
      omega
    have exponent : ((e + 1023 + 52).toNat : ℤ) - 1075 = e := by omega
    rw [if_pos (log.mpr normal), unpack_packComponents, ofParts, if_neg finite, if_neg implicit]
    simp only [field, fraction, exponent]
  · have fraction : (BitVec.ofNat 52 m).toNat = m := by
      rw [BitVec.toNat_ofNat]
      omega
    have nonzero : BitVec.ofNat 52 m ≠ 0#52 := by
      intro h
      have value := congrArg BitVec.toNat h
      rw [fraction] at value
      exact pos.ne' value
    rw [if_neg (mt log.mp normal), unpack_packComponents, ofParts, if_neg (by decide), if_pos rfl,
      dif_neg nonzero]
    simp only [fraction, full.resolve_left normal]
    rfl

/-! ### Comparing -/

theorem formUnits_pos {m : ℕ} {e : ℤ} (pos : 0 < m) : 0 < formUnits m e :=
  Nat.mul_pos pos (Nat.two_pow_pos _)

/-- A larger exponent counts for more than any mantissa. -/
theorem formUnits_lt_of_exponent {m₁ m₂ : ℕ} {e₁ e₂ : ℤ} (h₁ : Regular m₁ e₁)
    (h₂ : Regular m₂ e₂) (h : e₁ < e₂) :
    formUnits m₁ e₁ < formUnits m₂ e₂ := by
  have least := h₁.least
  have full : 2 ^ 52 ≤ m₂ := h₂.full.resolve_right (by omega)
  obtain ⟨d, hd⟩ : ∃ d, (e₂ + 1074).toNat = (e₁ + 1074).toNat + 1 + d :=
    ⟨(e₂ - e₁ - 1).toNat, by omega⟩
  calc m₁ * 2 ^ (e₁ + 1074).toNat
      < 2 ^ 53 * 2 ^ (e₁ + 1074).toNat := Nat.mul_lt_mul_of_pos_right h₁.below (Nat.two_pow_pos _)
    _ = 2 ^ 52 * 2 ^ ((e₁ + 1074).toNat + 1) := by ring
    _ ≤ m₂ * 2 ^ ((e₁ + 1074).toNat + 1 + d) :=
        Nat.mul_le_mul full (Nat.pow_le_pow_right (by decide) (Nat.le_add_right _ _))
    _ = m₂ * 2 ^ (e₂ + 1074).toNat := by rw [hd]

theorem formUnits_lt_iff {m₁ m₂ : ℕ} {e₁ e₂ : ℤ} (h₁ : Regular m₁ e₁) (h₂ : Regular m₂ e₂) :
    formUnits m₁ e₁ < formUnits m₂ e₂ ↔ e₁ < e₂ ∨ e₁ = e₂ ∧ m₁ < m₂ := by
  rcases lt_trichotomy e₁ e₂ with h | rfl | h
  · exact iff_of_true (formUnits_lt_of_exponent h₁ h₂ h) (.inl h)
  · rw [formUnits, formUnits, Nat.mul_lt_mul_right (Nat.two_pow_pos _)]
    exact ⟨fun h => .inr ⟨rfl, h⟩, fun h => h.elim (fun h => absurd h (lt_irrefl _)) And.right⟩
  · refine iff_of_false (Nat.lt_asymm (formUnits_lt_of_exponent h₂ h₁ h)) ?_
    rintro (h' | ⟨h', -⟩) <;> omega

/-- A finite double above zero. -/
def IsPositive (x : Float) : Prop := ∃ m e pos, x.toModel.unpack = .finite .positive m e pos

/-- A finite double at or above zero; there are two zeros. -/
def IsNonnegative (x : Float) : Prop := IsPositive x ∨ ∃ s, x.toModel.unpack = .zero s

theorem IsPositive.regular {x : Float} (h : IsPositive x) :
    ∃ m e, 0 < m ∧ Regular m e ∧ e ≤ 971 ∧ units x = formUnits m e := by
  obtain ⟨m, e, pos, hx⟩ := h
  obtain ⟨regular, bounded⟩ := ofParts_regular ((unpack_eq _).symm.trans hx)
  exact ⟨m, e, pos, regular, bounded, by rw [units, hx]; rfl⟩

theorem units_zero {x : Float} {s : Sign} (h : x.toModel.unpack = .zero s) : units x = 0 := by
  rw [units, h]
  rfl

theorem IsPositive.units_pos {x : Float} (h : IsPositive x) : 0 < units x := by
  obtain ⟨m, e, pos, -, -, value⟩ := h.regular
  rw [value]
  exact formUnits_pos pos

theorem IsNonnegative.positive {x : Float} (h : IsNonnegative x) (some : 0 < units x) :
    IsPositive x := by
  rcases h with h | ⟨s, h⟩
  · exact h
  · rw [units_zero h] at some
    exact absurd some (Nat.lt_irrefl 0)

/-- **Doubles at or above zero compare as their units do.** -/
theorem lt_iff_units {x y : Float} (hx : IsNonnegative x) (hy : IsNonnegative y) :
    x < y ↔ units x < units y := by
  rw [lt_unfold]
  rcases hx with hx | ⟨s, hx⟩
  · rcases hy with hy | ⟨s', hy⟩
    · obtain ⟨m₁, e₁, pos₁, hx⟩ := hx
      obtain ⟨m₂, e₂, pos₂, hy⟩ := hy
      have h₁ := (ofParts_regular ((unpack_eq _).symm.trans hx)).1
      have h₂ := (ofParts_regular ((unpack_eq _).symm.trans hy)).1
      simp only [units, unpackedUnits, hx, hy, UnpackedFloat.lt, UnpackedFloat.compare, beq_iff_eq,
        Option.some.injEq, then_eq_lt_iff, formUnits_lt_iff h₁ h₂]
    · have hu := hx.units_pos
      obtain ⟨m₁, e₁, pos₁, hx⟩ := hx
      rw [units_zero hy, hx, hy]
      exact iff_of_false (by simp [UnpackedFloat.lt, UnpackedFloat.compare]) (Nat.not_lt_zero _)
  · rw [units_zero hx]
    rcases hy with hy | ⟨s', hy⟩
    · have hu := hy.units_pos
      obtain ⟨m₂, e₂, pos₂, hy⟩ := hy
      rw [hx, hy]
      exact iff_of_true (by simp [UnpackedFloat.lt, UnpackedFloat.compare]) hu
    · rw [units_zero hy, hx, hy]
      exact iff_of_false (by simp [UnpackedFloat.lt, UnpackedFloat.compare]) (lt_irrefl _)

theorem IsPositive.above_zero {x : Float} (hx : IsPositive x) : 0 < x :=
  (lt_iff_units (.inr ⟨.positive, rfl⟩) (.inl hx)).mpr hx.units_pos

/-! ### Finite doubles -/

/-- A finite double above one at or above zero is above zero. -/
theorem isPositive_of_lt {x y : Float} (finite : x.isFinite = true)
    (hy : IsNonnegative y) (h : y < x) :
    IsPositive x := by
  have finite : x.toModel.unpack.isFinite = true := finite
  rw [lt_unfold] at h
  rcases hy with ⟨m, e, pos, hy⟩ | ⟨s, hy⟩ <;> rw [hy] at h <;>
    rcases hx : x.toModel.unpack with _ | _ | _ | ⟨_ | _, m', e', pos'⟩ <;> rw [hx] at h finite <;>
    simp_all [UnpackedFloat.lt, UnpackedFloat.compare, UnpackedFloat.isFinite, IsPositive]

theorem isNonnegative_of_le {x : Float} (finite : x.isFinite = true) (h : 0 ≤ x) :
    IsNonnegative x := by
  have finite : x.toModel.unpack.isFinite = true := finite
  have zero : (0 : Float).toModel.unpack = .zero .positive := by rfl
  have unfolded : 0 ≤ x ↔ decide ((0 : Float).toModel ≤ x.toModel) = true := Iff.rfl
  rw [unfolded, decide_eq_true_iff] at h
  have h : (0 : Float).toModel.unpack.le x.toModel.unpack = true := h
  rw [zero] at h
  rcases hx : x.toModel.unpack with _ | _ | s | ⟨_ | _, m, e, pos⟩ <;> rw [hx] at h finite <;>
    simp_all [UnpackedFloat.le, UnpackedFloat.compare, UnpackedFloat.isFinite, IsPositive,
      IsNonnegative]

theorem oneExponent_eq : oneExponent = 1074 := by rw [oneExponent]

theorem oneUnits_pos : 0 < oneUnits := Nat.two_pow_pos _

theorem two_pow_mul_oneUnits (k : ℕ) : 2 ^ k * oneUnits = 2 ^ (k + oneExponent) :=
  (Nat.pow_add 2 k _).symm

/-- The form in which one is kept. -/
theorem regular_one : Regular (2 ^ 52) (-52) := ⟨by decide, by decide, .inl le_rfl⟩

theorem formUnits_one : formUnits (2 ^ 52) (-52) = oneUnits := by
  rw [formUnits, oneUnits, ← Nat.pow_add, oneExponent_eq]
  congr 1

theorem isNonnegative_one : IsNonnegative 1 := .inl ⟨2 ^ 52, -52, by decide, rfl⟩

theorem isPositive_of_between {x : Float} (above : 0 < x) (below : x < 1) : IsPositive x := by
  have zero : (0 : Float).toModel.unpack = .zero .positive := by rfl
  have one : (1 : Float).toModel.unpack = .finite .positive (2 ^ 52) (-52) (by decide) := by rfl
  rw [lt_unfold, zero] at above
  rw [lt_unfold, one] at below
  rcases hx : x.toModel.unpack with (_ | _) | _ | s
    | ⟨_ | _, m, e, pos⟩ <;> rw [hx] at above below <;>
    simp_all [UnpackedFloat.lt, UnpackedFloat.compare, IsPositive]

/-- Doubles between zero and one have less units than one has. -/
theorem units_lt_of_lt_one {x : Float} (hx : IsPositive x) (below : x < 1) :
    units x < oneUnits := by
  have one : units 1 = oneUnits := formUnits_one
  rw [← one]
  exact (lt_iff_units (.inl hx) isNonnegative_one).mp below

/-- Forms of numbers below one have exponents below that of one. -/
theorem exponent_lt_of_lt_one {m : ℕ} {e : ℤ} (regular : Regular m e)
    (below : formUnits m e < oneUnits) : e < -52 := by
  rw [← formUnits_one, formUnits_lt_iff regular regular_one] at below
  rcases below with less | ⟨rfl, less⟩
  · exact less
  · exact absurd (regular.full.resolve_right (by decide)) (Nat.not_le.mpr less)

/-- **The largest double below one lacks a part of one to it that a mantissa still has.** -/
theorem lack_of_lt_one {m : ℕ} {e : ℤ} (regular : Regular m e) (below : formUnits m e < oneUnits) :
    oneUnits ≤ 2 ^ 53 * (oneUnits - formUnits m e) := by
  have exponent := exponent_lt_of_lt_one regular below
  have one := oneExponent_eq
  have room : 2 ^ 53 * 2 ^ (e + 1074).toNat ≤ oneUnits := by
    rw [← Nat.pow_add, oneUnits]
    exact Nat.pow_le_pow_right (by decide) (by omega)
  have taken : 2 ^ 53 * formUnits m e ≤ (2 ^ 53 - 1) * oneUnits := by
    calc 2 ^ 53 * formUnits m e = m * (2 ^ 53 * 2 ^ (e + 1074).toNat) := by
          rw [formUnits]
          ring
      _ ≤ (2 ^ 53 - 1) * oneUnits := Nat.mul_le_mul (Nat.le_sub_one_of_lt regular.below) room
  rw [Nat.mul_sub]
  omega

theorem lack_of_between {x : Float} (above : 0 < x) (below : x < 1) :
    oneUnits ≤ 2 ^ 53 * (oneUnits - units x) := by
  have positive := isPositive_of_between above below
  have less := units_lt_of_lt_one positive below
  obtain ⟨m, e, -, regular, -, value⟩ := positive.regular
  rw [value] at less ⊢
  exact lack_of_lt_one regular less

end Annealing
