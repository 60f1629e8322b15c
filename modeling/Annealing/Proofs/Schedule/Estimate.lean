import Annealing.Proofs.Number.Logarithm
import Annealing.Proofs.Schedule.ClosedForm
import Annealing.Proofs.Schedule.Cooling
import Annealing.Number.Power

/-!
# Schedule — when the closed form answers

The closed form takes the logarithm of the quotient of the minimum by the initial temperature.  On
doubles that quotient may be rounded to zero, and zero has no logarithm.  So the closed form is
refused not only where the factor does not cool, but also where the minimum is zero or too far below
the initial temperature (`Vanishes`).

**Nothing else is refused** (`Schedule.estimate_answers_iff`).  Above zero and at most one, the
quotient has a logarithm; that of a factor below one is not zero; and the quotient of the two is
finite and at or above zero, whatever the three doubles are, so it is rounded up to a natural
number.  This takes no more of the logarithm than that it is one (`IsLogarithm`).

From `1e300` down by `1e-250` to `1e-300` there are three levels, and the closed form is refused
(`farDown_refused`).
-/

namespace Annealing.Schedule

/-! ### Doubles as arguments -/

/-- The operations on values, with a logarithm of doubles. -/
def Numbers.valuesBy (log : Float → Float) : Numbers Value Float Float :=
  { values with logarithm := fun x => if x ≤ 0 then .error .outsideDomain else .ok (log x) }

/-- The closed form for three doubles, with a logarithm of doubles. -/
def estimateBy (log : Float → Float) (initial factor minimum : Float) : Except Fault ℤ :=
  (Numbers.valuesBy log).estimate (.float initial) (.float factor) (.float minimum)

theorem isCooling_float (factor : Float) :
    isCooling (.float factor) = .ok (decide (0 < factor ∧ factor < 1)) := by
  rw [isCooling, Value.relate_less, Value.relate_less, Bool.decide_and]
  cases decide (0 < factor) <;> rfl

theorem roundUp_of_isFinite {x : Float} (hx : x.isFinite = true) :
    roundUp x = .ok ⌈exactValue x⌉ := by
  obtain ⟨b, parts, rounded⟩ := ceiling_of_isFinite hx
  rw [roundUp, parts, ← rounded]

section

variable {log : Float → Float} {initial factor minimum : Float}

theorem estimate_of_atMost (low : initial ≤ minimum) :
    estimateBy log initial factor minimum = .ok 0 := by
  have exit : (Numbers.valuesBy log).atMost (.float initial) (.float minimum) = .ok true :=
    (Value.relate_atMost initial minimum).trans (congrArg Except.ok (decide_eq_true low))
  rw [estimateBy, Numbers.estimate, exit]
  rfl

variable (higher : minimum < initial)

include higher

theorem goesOn_floats : (Numbers.valuesBy log).atMost (.float initial)
    (.float minimum) = .ok false :=
  (Value.relate_atMost initial minimum).trans
    (congrArg Except.ok (decide_eq_false fun low => (le_iff_not_lt.mp low).2 higher))

theorem estimate_of_uncooled (uncooled : ¬ (0 < factor ∧ factor < 1)) :
    estimateBy log initial factor minimum = .error .coolingOutsideRange := by
  have refused : (Numbers.valuesBy log).isCooling (.float factor) = .ok false :=
    (isCooling_float factor).trans (congrArg Except.ok (decide_eq_false uncooled))
  rw [estimateBy, Numbers.estimate, goesOn_floats higher, refused]
  rfl

variable (hi : IsPositive initial) (cools : 0 < factor ∧ factor < 1)

include hi cools

/-- What is left of the closed form when its guards are passed. -/
theorem estimate_of_cools :
    estimateBy log initial factor minimum = (do
      let top ← (Numbers.valuesBy log).logarithm (minimum / initial)
      let bottom ← (Numbers.valuesBy log).logarithm factor
      if bottom == 0 then throw (.divisionByZero true)
      roundUp (top / bottom)) := by
  have cooling : (Numbers.valuesBy log).isCooling (.float factor) = .ok true :=
    (isCooling_float factor).trans (congrArg Except.ok (decide_eq_true cools))
  have unfolded : (Numbers.valuesBy log).quotient (.float minimum) (.float initial) =
      if initial == 0 then .error (.divisionByZero true) else .ok (minimum / initial) := rfl
  have divides : (initial == 0) = false := beq_zero_eq_false hi.isFinite (exactValue_pos hi).ne'
  have quotient : (Numbers.valuesBy log).quotient (.float minimum)
      (.float initial) = .ok (minimum / initial) := by
    rw [unfolded, divides]
    rfl
  rw [estimateBy, Numbers.estimate, goesOn_floats higher, cooling, quotient]
  rfl

variable (hm : IsNonnegative minimum)

include hm

/-- A quotient that is rounded to zero has no logarithm. -/
theorem estimate_of_vanishes (vanishes : Vanishes minimum initial) :
    estimateBy log initial factor minimum = .error .outsideDomain := by
  have refused : (Numbers.valuesBy log).logarithm (minimum / initial) = .error .outsideDomain :=
    if_pos ((quotient_nonpos_iff hm hi).mpr vanishes)
  rw [estimate_of_cools higher hi cools, refused]
  rfl

/-- Where the quotient is not rounded to zero, the closed form is a natural number. -/
theorem estimate_of_not_vanishes (is : IsLogarithm log) (stays : ¬ Vanishes minimum initial) :
    ∃ n : ℕ, estimateBy log initial factor minimum = .ok n := by
  obtain ⟨positive, atMost⟩ := quotient_of_not_vanishes hm hi higher stays
  have positive' : IsPositive factor := isPositive_of_between cools.1 cools.2
  have some : ∀ {x : Float}, IsPositive x → (Numbers.valuesBy log).logarithm x = .ok (log x) :=
    fun hx =>
    if_neg fun none => (le_iff_not_lt.mp none).2 (IsPositive.above_zero hx)
  -- no quotient of logarithms is too large to be rounded up, and none is below zero
  obtain ⟨finite, nonneg⟩ := is.quotient_isFinite positive positive' atMost cools.2
  obtain ⟨n, rounded⟩ := Int.eq_ofNat_of_zero_le (Int.ceil_nonneg nonneg)
  refine ⟨n, ?_⟩
  rw [estimate_of_cools higher hi cools, some positive, some positive']
  simp only [bind, Except.bind, is.divides positive' cools.2, Bool.false_eq_true, if_false]
  exact (roundUp_of_isFinite finite).trans (congrArg Except.ok rounded)

end

/-! ### All doubles -/

/-- **When the closed form answers.**  With the logarithm of the platform, it is that of the
library.  With any logarithm, it is zero where the initial temperature is at most the minimum, is
refused where the factor does not lie between zero and one, and elsewhere is a natural number
exactly if the quotient of the minimum by the initial temperature is not rounded to zero. -/
theorem estimate_answers_iff {log : Float → Float} (is : IsLogarithm log) {initial minimum : Float}
    (factor : Float) (hi : initial.isFinite = true) (hm : minimum.isFinite = true)
    (nonnegative : 0 ≤ minimum) :
    estimateBy Float.log initial factor minimum = estimate (.float initial)
      (.float factor) (.float minimum) ∧
    (initial ≤ minimum → estimateBy log initial factor minimum = .ok 0) ∧
    (minimum < initial → ¬ (0 < factor ∧ factor < 1) →
      estimateBy log initial factor minimum = .error .coolingOutsideRange) ∧
    (minimum < initial → 0 < factor ∧ factor < 1 →
      ((∃ n : ℕ, estimateBy log initial factor minimum = .ok n) ↔ ¬ Vanishes minimum initial) ∧
      (Vanishes minimum initial →
        estimateBy log initial factor minimum = .error .outsideDomain)) := by
  have hm := isNonnegative_of_le hm nonnegative
  refine ⟨rfl, estimate_of_atMost, estimate_of_uncooled, fun higher cools => ?_⟩
  have hi := isPositive_of_lt hi hm higher
  have refused := @estimate_of_vanishes log _ _ _ higher hi cools hm
  refine ⟨⟨?_, estimate_of_not_vanishes higher hi cools hm is⟩, refused⟩
  rintro ⟨n, answer⟩ vanishes
  rw [refused vanishes] at answer
  cases answer

/-- Where the quotient is only two of the smallest double, and the factor the greatest below one,
the closed form answers. -/
theorem slowDown_answered : IsLogarithm nearestLog ∧ ¬ Vanishes 1e-23 1e300 ∧
    ∃ n : ℕ, estimateBy nearestLog 1e300 0.9999999999999999 1e-23 = .ok n := by
  have finite : (1e300 : Float).isFinite = true := by decide +kernel
  have finite' : (1e-23 : Float).isFinite = true := by decide +kernel
  have answers := estimate_answers_iff isLogarithm_nearestLog 0.9999999999999999 finite
    finite' (by decide +kernel)
  have stays : ¬ Vanishes 1e-23 1e300 := by decide +kernel
  exact ⟨isLogarithm_nearestLog, stays,
    (answers.2.2.2 (by decide +kernel) (by decide +kernel)).1.mpr stays⟩

/-- From `1e300` down by `1e-250` to `1e-300`, the closed form is refused, though there are three
levels. -/
theorem farDown_refused :
    (1e300 : Float).isFinite = true ∧ (1e-300 : Float).isFinite = true ∧ (0 : Float) ≤ 1e-300 ∧
    (1e-300 : Float) < 1e300 ∧
      (0 : Float) < 1e-250 ∧ (1e-250 : Float) < 1 ∧
      estimate (.float 1e300) (.float 1e-250) (.float 1e-300) = .error .outsideDomain ∧
      lengthOfValues (.float 1e300) (.float 1e-250) (.float 1e-300) = .ok 3 := by
  have finite : (1e300 : Float).isFinite = true := by decide +kernel
  have finite' : (1e-300 : Float).isFinite = true := by decide +kernel
  have nonneg : (0 : Float) ≤ 1e-300 := by decide +kernel
  have higher : (1e-300 : Float) < 1e300 := by decide +kernel
  have above : (0 : Float) < 1e-250 := by decide +kernel
  have below : (1e-250 : Float) < 1 := by decide +kernel
  have hm := isNonnegative_of_le finite' nonneg
  have refused := @estimate_of_vanishes Float.log _ _ _ higher (isPositive_of_lt finite hm higher)
    ⟨above, below⟩ hm
  have levels : ∀ {i f m : Float}, m < i → m < i * f → m < i * f * f → ¬ m < i * f * f * f →
      (geometric i f m).Levels i [i, i * f, i * f * f] := fun first second third stops =>
    .more (congrArg _ (decide_eq_true first)) rfl (.more (congrArg _ (decide_eq_true second)) rfl
      (.more (congrArg _ (decide_eq_true third)) rfl (.stop (congrArg _ (decide_eq_false stops)))))
  have three := levels higher (f := 1e-250) (by decide +kernel)
    (by decide +kernel) (by decide +kernel)
  exact ⟨finite, finite', nonneg, higher, above, below, refused (by decide +kernel),
    lengthOfValues_floats three⟩

end Annealing.Schedule
