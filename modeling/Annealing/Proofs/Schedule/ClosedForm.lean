import Annealing.Proofs.Schedule.Levels
import Annealing.Schedule.Estimate
import Mathlib.Analysis.SpecialFunctions.Log.Basic

/-!
# Schedule — the closed form on exact numbers

The schedule, the count of its levels and the closed form for it use few operations on numbers.
`Schedule.Numbers` lists them, and all three are written over them here once.  With the operations
on values they are those of the library (`Numbers.values_reads`).  With those on exact numbers,
rational temperatures and real logarithms, nothing is rounded, and the closed form is the count.

* `Numbers.logRatio_le_iff`: the quotient of the logarithms is at most `k` exactly if `k` steps of
  cooling lead to the minimum or below it.  The logarithm of the factor is negative, so dividing by
  it turns the inequality around.
* `Numbers.exact_lengths`: the main statement.  The levels, the count and the closed form are all
  told by the least number of steps that lead to the minimum or below it.

A schedule of exact numbers may have more levels than there are doubles, so its levels are counted
up to any limit above their number.
-/

namespace Annealing.Schedule

/-- The operations on arguments `κ`, temperatures `τ` and logarithms `ℓ` that schedules and their
lengths use. -/
structure Numbers (κ τ ℓ : Type) where
  atMost : κ → κ → Except Fault Bool
  /-- The temperature that an argument is. -/
  real : κ → Except Fault τ
  above : τ → κ → Except Fault Bool
  cooled : τ → κ → Except Fault τ
  /-- Whether an argument lies strictly between zero and one. -/
  isCooling : κ → Except Fault Bool
  quotient : κ → κ → Except Fault τ
  logarithm : τ → Except Fault ℓ
  isZero : ℓ → Bool
  logQuotient : ℓ → ℓ → ℓ
  roundUp : ℓ → Except Fault ℤ

namespace Numbers

section

variable {κ τ ℓ : Type} (N : Numbers κ τ ℓ)

/-- The geometric schedule. -/
def schedule (initial factor minimum : κ) : Except Fault (Schedule τ) := do
  return {
    first := ← N.real initial
    above := fun t => N.above t minimum
    cooled := fun t => N.cooled t factor }

/-- The number of levels, counted up to a limit above it. -/
def length (limit : ℕ) (initial factor minimum : κ) : Except Fault ℕ := do
  if ← N.atMost initial minimum then return 0
  let s ← N.schedule initial factor minimum
  s.lengthFrom limit 0 s.first

/-- The number of levels in closed form. -/
def estimate (initial factor minimum : κ) : Except Fault ℤ := do
  if ← N.atMost initial minimum then return 0
  if !(← N.isCooling factor) then throw .coolingOutsideRange
  let top ← N.logarithm (← N.quotient minimum initial)
  let bottom ← N.logarithm (← N.real factor)
  if N.isZero bottom then throw (.divisionByZero true)
  N.roundUp (N.logQuotient top bottom)

end

/-! ### Values -/

/-- The operations on values, with doubles for temperatures. -/
def values : Numbers Value Float Float where
  atMost a b := a.relate .atMost b
  real := Value.toReal
  above t minimum := Value.relate .greater (.float t) minimum
  cooled := Value.scale
  isCooling := Schedule.isCooling
  quotient := Value.div
  logarithm := Schedule.logarithm
  isZero x := x == 0
  logQuotient x y := x / y
  roundUp := Schedule.roundUp

/-- **With the operations on values, all three are those of the library.** -/
theorem values_reads (initial factor minimum : Value) :
    values.schedule initial factor minimum = ofValues initial factor minimum ∧
    values.length (levelLimit + 1) initial factor minimum = lengthOfValues initial factor minimum ∧
    values.estimate initial factor minimum = Schedule.estimate initial factor minimum :=
  ⟨rfl, rfl, rfl⟩

/-! ### Exact numbers -/

/-- The operations on rational numbers, with real numbers for their logarithms. -/
noncomputable def rational : Numbers ℚ ℚ ℝ where
  atMost a b := .ok (a ≤ b)
  real := .ok
  above t minimum := .ok (t > minimum)
  cooled t factor := .ok (t * factor)
  isCooling factor := .ok (0 < factor ∧ factor < 1)
  quotient a b := if b = 0 then .error (.divisionByZero true) else .ok (a / b)
  logarithm x := if x ≤ 0 then .error .outsideDomain else .ok (Real.log x)
  isZero x := open Classical in decide (x = 0)
  logQuotient x y := x / y
  roundUp x := .ok ⌈x⌉

section

variable {initial factor minimum : ℚ} (positive : 0 < minimum)
  (higher : minimum < initial) (above : 0 < factor)
  (below : factor < 1)

/-- The quotient of the logarithms. -/
noncomputable def logRatio (initial factor minimum : ℚ) : ℝ :=
  Real.log (minimum / initial : ℚ) / Real.log factor

include above below in
theorem log_factor_neg : Real.log factor < 0 :=
  Real.log_neg (by exact_mod_cast above) (by exact_mod_cast below)

include positive higher above below

/-- **The quotient of the logarithms tells how many steps lead to the minimum or below it.** -/
theorem logRatio_le_iff (k : ℕ) :
    logRatio initial factor minimum ≤ k ↔ initial * factor ^ k ≤ minimum := by
  have start : 0 < initial := positive.trans higher
  have ratio : (0 : ℝ) < (minimum / initial : ℚ) := by exact_mod_cast div_pos positive start
  have power : (0 : ℝ) < (factor : ℝ) ^ k := pow_pos (by exact_mod_cast above) k
  calc logRatio initial factor minimum ≤ k
    _ ↔ k * Real.log factor ≤ Real.log (minimum / initial : ℚ) :=
      div_le_iff_of_neg (log_factor_neg above below)
    _ ↔ (factor : ℝ) ^ k ≤ (minimum / initial : ℚ) := by
      rw [← Real.log_pow, Real.log_le_log_iff power ratio]
    _ ↔ factor ^ k ≤ minimum / initial := by exact_mod_cast Iff.rfl
    _ ↔ initial * factor ^ k ≤ minimum := le_div_iff₀' start

/-- The quotient of the logarithms, rounded up, is the least number of steps that lead to the
minimum or below it. -/
theorem isLeast_ceil :
    IsLeast {k : ℕ | initial * factor ^ k ≤ minimum} ⌈logRatio initial factor minimum⌉₊ := by
  have steps := logRatio_le_iff positive higher above below
  exact ⟨(steps _).mp (Nat.le_ceil _), fun k hk => Nat.ceil_le.mpr ((steps k).mpr hk)⟩

omit positive above below in
theorem goesOn_exact : rational.atMost initial minimum = .ok false := by
  simp [rational, higher]

theorem logRatio_nonneg : 0 ≤ logRatio initial factor minimum := by
  have start : 0 < initial := positive.trans higher
  have low : 0 ≤ minimum / initial := (div_pos positive start).le
  have high : minimum / initial ≤ 1 := (div_le_one start).mpr higher.le
  exact div_nonneg_of_nonpos (Real.log_nonpos (by exact_mod_cast low) (by exact_mod_cast high))
    (log_factor_neg above below).le

/-- In closed form, the length is the quotient of the logarithms, rounded up. -/
theorem estimate_exact :
    rational.estimate initial factor minimum = .ok ⌈logRatio initial factor minimum⌉ := by
  have start : 0 < initial := positive.trans higher
  have cooling : rational.isCooling factor = .ok true := by
    simp [rational, above, below]
  have ratio : rational.quotient minimum initial = .ok (minimum / initial) := by
    simp [rational, start.ne']
  have top : rational.logarithm (minimum / initial) = .ok (Real.log (minimum / initial : ℚ)) := by
    simp [rational, not_le.mpr (div_pos positive start)]
  have bottom : rational.logarithm factor = .ok (Real.log factor) := by
    simp [rational, not_le.mpr above]
  have divides : rational.isZero (Real.log factor) = false := by
    simp only [rational, decide_eq_false_iff_not]
    exact (log_factor_neg above below).ne
  have real : rational.real factor = .ok factor := rfl
  simp only [estimate, goesOn_exact higher, cooling, ratio, top, real, bottom, divides, bind,
    Except.bind, Bool.not_true, Bool.false_eq_true, if_false]
  rfl

end

/-- From a temperature on, a schedule has the levels behind it as long as they are above the
minimum. -/
theorem levels_exact {initial factor minimum : ℚ} {n : ℕ}
    (least : IsLeast {k : ℕ | initial * factor ^ k ≤ minimum} n) {s : Schedule ℚ}
    (made : rational.schedule initial factor minimum = .ok s) : ∀ more k, k + more = n →
      s.Levels (initial * factor ^ k) ((List.range' k more).map fun k => initial * factor ^ k) := by
  obtain ⟨reached, first⟩ := least
  cases made
  intro more
  induction more with
  | zero =>
      rintro k rfl
      exact .stop (congrArg Except.ok (decide_eq_false (not_lt.mpr reached)))
  | succ more ih =>
      intro k length
      have stands : minimum < initial * factor ^ k := by
        by_contra reached
        have := first (not_lt.mp reached)
        omega
      rw [List.range'_succ, List.map_cons]
      refine .more (congrArg Except.ok (decide_eq_true stands)) rfl ?_
      rw [mul_assoc, ← pow_succ]
      exact ih (k + 1) (by omega)

/-- **On exact numbers the closed form is the count.**  The operations on values make of the three
functions those of the library.  With the operations on exact numbers, the levels are those before
the first that is not above the minimum, and their number is both counted and told in closed form,
also where a level meets the minimum. -/
theorem exact_lengths :
    (∀ initial factor minimum : Value, values.schedule initial factor minimum =
      ofValues initial factor minimum ∧
      values.length (levelLimit + 1) initial factor minimum =
        lengthOfValues initial factor minimum ∧
      values.estimate initial factor minimum = Schedule.estimate initial factor minimum) ∧
    ∀ {initial factor minimum : ℚ}, 0 < minimum → minimum < initial → 0 < factor → factor < 1 →
      ∃ n : ℕ, IsLeast {k : ℕ | initial * factor ^ k ≤ minimum} n ∧
        (∃ s, rational.schedule initial factor minimum = .ok s ∧ s.first = initial ∧
          s.Levels initial ((List.range n).map fun k => initial * factor ^ k)) ∧
        (∀ limit, n < limit → rational.length limit initial factor minimum = .ok n) ∧
        rational.estimate initial factor minimum = .ok n ∧
        ∀ k, minimum = initial * factor ^ k → n = k := by
  refine ⟨values_reads, fun {initial factor minimum} positive higher above below => ?_⟩
  have least := isLeast_ceil positive higher above below
  set n := ⌈logRatio initial factor minimum⌉₊
  obtain ⟨s, made⟩ : ∃ s, rational.schedule initial factor minimum = .ok s := ⟨_, rfl⟩
  have first : s.first = initial := by
    cases made
    rfl
  have levels : s.Levels initial ((List.range n).map fun k => initial * factor ^ k) := by
    have behind := levels_exact least made n 0 (Nat.zero_add n)
    rwa [pow_zero, mul_one, ← List.range_eq_range'] at behind
  refine ⟨n, least, ⟨s, made, first, levels⟩, ?_, ?_, ?_⟩
  · intro limit room
    have counted : s.lengthFrom limit 0 initial = .ok (0 + _) :=
      levels.lengthFrom_eq (by simpa using room)
    rw [Nat.zero_add, List.length_map, List.length_range] at counted
    simp only [length, goesOn_exact higher, made, bind, Except.bind, Bool.false_eq_true, if_false,
      first, counted]
  · rw [estimate_exact positive higher above below,
      ← Int.natCast_ceil_eq_ceil (logRatio_nonneg positive higher above below)]
  · rintro k rfl
    have reached : factor ^ n ≤ factor ^ k := le_of_mul_le_mul_left least.1 (positive.trans higher)
    have met : k ∈ {m : ℕ | initial * factor ^ m ≤ initial * factor ^ k} :=
      le_refl (initial * factor ^ k)
    exact Nat.le_antisymm (least.2 met) ((pow_le_pow_iff_right_of_lt_one₀ above below).mp reached)

/-- Halving eight meets the minimum after three steps, and the minimum is no level. -/
theorem halving_meets_one : (0 : ℚ) < 1 ∧ (1 : ℚ) < 8 ∧ (0 : ℚ) < 1 / 2 ∧ (1 / 2 : ℚ) < 1 ∧
    (∃ s, rational.schedule 8 (1 / 2) 1 = .ok s ∧ s.Levels 8 [8, 4, 2]) ∧
    rational.length 4 8 (1 / 2) 1 = .ok 3 ∧
    rational.estimate 8 (1 / 2) 1 = .ok 3 := by
  have positive : (0 : ℚ) < 1 := by norm_num
  have higher : (1 : ℚ) < 8 := by norm_num
  have above : (0 : ℚ) < 1 / 2 := by norm_num
  have below : (1 / 2 : ℚ) < 1 := by norm_num
  obtain ⟨n, -, ⟨s, made, -, levels⟩, counted, told, meets⟩ :=
    exact_lengths.2 positive higher above below
  obtain rfl : n = 3 := meets 3 (by norm_num)
  have three : ((List.range 3).map fun k => (8 : ℚ) * (1 / 2) ^ k) = [8, 4, 2] := by
    norm_num [List.range_succ]
  exact ⟨positive, higher, above, below, ⟨s, made, three ▸ levels⟩, counted 4 (by norm_num), told⟩

end Numbers

end Annealing.Schedule
