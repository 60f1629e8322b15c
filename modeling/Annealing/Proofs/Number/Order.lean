import Mathlib

/-!
# Number — the order of doubles

Doubles that are numbers compare like their *ranks*: infinities outside, then the finite ones by
sign, exponent and mantissa, and both zeros at one place (`lt_iff_rank`).  Ranks are linearly
ordered, so the doubles that are numbers are ordered too, up to the sign of zero.

A double is at most another one when both are numbers and the other is not below it
(`le_iff_not_lt`).
-/

namespace Annealing

open Float.Model

/-- The place of an unpacked double in the order. -/
def unpackedRank : UnpackedFloat → ℤ ×ₗ ℤ ×ₗ ℤ
  | .infinity .negative => toLex (-2, toLex (0, 0))
  | .finite .negative m e _ => toLex (-1, toLex (-e, -(m : ℤ)))
  | .notANumber | .zero _ => toLex (0, toLex (0, 0))
  | .finite .positive m e _ => toLex (1, toLex (e, (m : ℤ)))
  | .infinity .positive => toLex (2, toLex (0, 0))

/-- The place of a double in the order. -/
def rank (x : Float) : ℤ ×ₗ ℤ ×ₗ ℤ := unpackedRank x.toModel.unpack

theorem then_eq_lt_iff {e₁ e₂ : ℤ} {m₁ m₂ : ℕ} :
    (compare e₁ e₂).then (compare m₁ m₂) = .lt ↔ e₁ < e₂ ∨ e₁ = e₂ ∧ m₁ < m₂ := by
  rw [Ordering.then_eq_lt]
  simp [Int.compare_eq_lt, Nat.compare_eq_lt]

theorem then_eq_gt_iff {e₁ e₂ : ℤ} {m₁ m₂ : ℕ} :
    (compare e₁ e₂).then (compare m₁ m₂) = .gt ↔ e₂ < e₁ ∨ e₁ = e₂ ∧ m₂ < m₁ := by
  rw [Ordering.then_eq_gt]
  simp [Int.compare_eq_gt, Nat.compare_eq_gt]

/-- Unpacked doubles that are numbers compare like their ranks. -/
theorem unpacked_lt_iff {a b : UnpackedFloat} (ha : a.isNaN = false) (hb : b.isNaN = false) :
    a.lt b = true ↔ unpackedRank a < unpackedRank b := by
  -- one case for every pair of shapes; only two finite doubles of one sign need more than their
  -- shapes
  rcases a with (_ | _) | _ | _ | ⟨_ | _, m₁, e₁, h₁⟩ <;> rcases b with (_ | _)
    | _ | _ | ⟨_ | _, m₂, e₂, h₂⟩ <;>
    simp_all [UnpackedFloat.lt, UnpackedFloat.compare, UnpackedFloat.isNaN, unpackedRank,
      Prod.Lex.toLex_lt_toLex, then_eq_lt_iff, then_eq_gt_iff]
  rfl

theorem lt_unfold {x y : Float} : x < y ↔ x.toModel.unpack.lt y.toModel.unpack = true := by
  have unfolded : x < y ↔ decide (x.toModel < y.toModel) = true := Iff.rfl
  rw [unfolded, decide_eq_true_iff]
  rfl

/-- **Doubles that are numbers compare like their ranks.** -/
theorem lt_iff_rank {x y : Float} (hx : x.isNaN = false) (hy : y.isNaN = false) :
    x < y ↔ rank x < rank y := by
  rw [lt_unfold]
  exact unpacked_lt_iff hx hy

/-- Only numbers are below each other. -/
theorem number_of_lt {x y : Float} (h : x < y) : x.isNaN = false ∧ y.isNaN = false := by
  rw [lt_unfold] at h
  change x.toModel.unpack.isNaN = false ∧ y.toModel.unpack.isNaN = false
  cases hx : x.toModel.unpack <;> cases hy : y.toModel.unpack <;> rw [hx, hy] at h <;>
    simp_all [UnpackedFloat.lt, UnpackedFloat.compare, UnpackedFloat.isNaN]

theorem lt_asymm_of_number {x y : Float} (hx : x.isNaN = false) (hy : y.isNaN = false) (h : x < y) :
    ¬ y < x := by
  rw [lt_iff_rank hx hy] at h
  rw [lt_iff_rank hy hx]
  exact lt_asymm h

theorem lt_split_of_number {x y z : Float} (hx : x.isNaN = false) (hy : y.isNaN = false)
    (hz : z.isNaN = false) (h : x < z) : x < y ∨ y < z := by
  rw [lt_iff_rank hx hz] at h
  rw [lt_iff_rank hx hy, lt_iff_rank hy hz]
  exact (lt_or_ge (rank x) (rank y)).imp_right fun hyx => lt_of_le_of_lt hyx h

/-! ### At most -/

theorem le_unfold {x y : Float} : x ≤ y ↔ x.toModel.unpack.le y.toModel.unpack = true := by
  have unfolded : x ≤ y ↔ decide (x.toModel ≤ y.toModel) = true := Iff.rfl
  rw [unfolded, decide_eq_true_iff]
  rfl

/-- Comparing two unpacked doubles the other way round turns the answer round. -/
theorem unpacked_compare_swap (a b : UnpackedFloat) :
    b.compare a = (a.compare b).map Ordering.swap := by
  have parts : ∀ (e₁ e₂ : ℤ) (m₁ m₂ : ℕ), (compare e₂ e₁).then (compare m₂ m₁) =
      ((compare e₁ e₂).then (compare m₁ m₂)).swap := fun e₁ e₂ m₁ m₂ => by
    rw [Ordering.swap_then, Int.compare_swap, Nat.compare_swap]
  rcases a with (_ | _) | _ | _ | ⟨_ | _, m₁, e₁, h₁⟩ <;> rcases b with (_ | _)
    | _ | _ | ⟨_ | _, m₂, e₂, h₂⟩
  case finite.negative.finite.negative => exact congrArg (fun o => some o.swap) (parts e₁ e₂ m₁ m₂)
  case finite.positive.finite.positive => exact congrArg some (parts e₁ e₂ m₁ m₂)
  all_goals rfl

/-- Only unpacked doubles that are numbers compare. -/
theorem unpacked_compare_isSome (a b : UnpackedFloat) :
    (a.compare b).isSome = (!a.isNaN && !b.isNaN) := by
  rcases a with (_ | _) | _ | _ | ⟨_ | _, m₁, e₁, h₁⟩ <;> rcases b with (_ | _)
    | _ | _ | ⟨_ | _, m₂, e₂, h₂⟩ <;> rfl

/-- **A double is at most another one exactly if both are numbers and the other is not below
it.** -/
theorem le_iff_not_lt {x y : Float} : x ≤ y ↔ (x.isNaN = false ∧ y.isNaN = false) ∧ ¬ y < x := by
  have numbers : (x.isNaN = false ∧ y.isNaN = false) ↔
      (x.toModel.unpack.compare y.toModel.unpack).isSome = true := by
    rw [unpacked_compare_isSome, Bool.and_eq_true, Bool.not_eq_true', Bool.not_eq_true']
    rfl
  rw [numbers, le_unfold, lt_unfold, UnpackedFloat.le, UnpackedFloat.lt,
    unpacked_compare_swap x.toModel.unpack]
  rcases x.toModel.unpack.compare y.toModel.unpack with _ | _ | _ | _ <;> decide

/-- Of two doubles that are equal, each is at most the other. -/
theorem le_of_beq {x y : Float} (h : (x == y) = true) : x ≤ y := by
  have same : (x == y) = (x.toModel.unpack.compare y.toModel.unpack == some .eq) := rfl
  rw [same, beq_iff_eq] at h
  rw [le_unfold, UnpackedFloat.le, h]
  rfl

theorem lt_of_le_of_below {x y z : Float} (h : x ≤ y) (below : y < z) : x < z := by
  obtain ⟨⟨hx, hy⟩, le⟩ := le_iff_not_lt.mp h
  have hz := (number_of_lt below).2
  rw [lt_iff_rank hy hx, not_lt] at le
  rw [lt_iff_rank hy hz] at below
  exact (lt_iff_rank hx hz).mpr (lt_of_le_of_lt le below)

theorem lt_of_below_of_le {x y z : Float} (below : x < y) (h : y ≤ z) : x < z := by
  obtain ⟨⟨hy, hz⟩, le⟩ := le_iff_not_lt.mp h
  have hx := (number_of_lt below).1
  rw [lt_iff_rank hz hy, not_lt] at le
  rw [lt_iff_rank hx hy] at below
  exact (lt_iff_rank hx hz).mpr (lt_of_lt_of_le below le)

theorem le_of_le_of_le {x y z : Float} (h : x ≤ y) (h' : y ≤ z) : x ≤ z := by
  obtain ⟨⟨hx, hy⟩, le⟩ := le_iff_not_lt.mp h
  obtain ⟨⟨-, hz⟩, le'⟩ := le_iff_not_lt.mp h'
  rw [lt_iff_rank hy hx, not_lt] at le
  rw [lt_iff_rank hz hy, not_lt] at le'
  rw [le_iff_not_lt, lt_iff_rank hz hx, not_lt]
  exact ⟨⟨hx, hz⟩, le.trans le'⟩

/-- A double below another one is at most that one. -/
theorem le_of_below {x y : Float} (h : x < y) : x ≤ y := by
  obtain ⟨hx, hy⟩ := number_of_lt h
  exact le_iff_not_lt.mpr ⟨⟨hx, hy⟩, lt_asymm_of_number hx hy h⟩

end Annealing
