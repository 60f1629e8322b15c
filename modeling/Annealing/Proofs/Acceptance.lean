import Annealing.Acceptance
import Annealing.Proofs.Number.Operations

/-!
# Acceptance — what makes a candidate more acceptable

A candidate that is accepted stays accepted when it costs less, when the current state costs more,
when the temperature is higher, and when the number drawn is lower.  A change may move the decision
from one case to another: a lower difference leaves the chance for plain acceptance, and a higher
temperature leaves plain rejection for the chance.

* `Arithmetic.Orderly`: what is asked of an arithmetic.  Differences grow with the new cost and fall
  with the current one, exponents fall with the difference and rise with the temperature, both keep
  signs, and the exponential function is monotone and one at zero.
* `decision`: the decision, with how many numbers were drawn for it.
* `doubles_orderly`: subtraction and division of doubles are orderly, because they round the exact
  results and rounding is monotone.  The exponential function is not defined in this library, so of
  it the same is assumed.
* `decision_monotone`: what follows for any orderly arithmetic.

A temperature may be no number at all: it is neither zero or below nor above zero, and a number is
drawn for it in vain (`undefined_drawn`).
-/

namespace Annealing

open Float.Model

/-! ### Orderly arithmetic -/

section

variable {κ θ δ : Type} [LE κ] [LE θ] [LT θ] [OfNat θ 0] [LE δ] [OfNat δ 0]

/-- A difference of two of these costs. -/
def Arithmetic.IsGap (A : Arithmetic κ θ δ) (costs : Set κ) (d : δ) : Prop :=
  ∃ c ∈ costs, ∃ n ∈ costs, A.gap c n = .ok d

/-- An arithmetic in which subtraction of these costs and division by these temperatures are
monotone and keep signs, and the exponential function is monotone and one at zero. -/
structure Arithmetic.Orderly (A : Arithmetic κ θ δ) (costs : Set κ) (temperatures : Set θ) :
    Prop where
  gap : ∀ {c n}, c ∈ costs → n ∈ costs → ∃ d, A.gap c n = .ok d
  gap_mono : ∀ {c c' n n' d d'}, c ∈ costs → c' ∈ costs → n ∈ costs → n' ∈ costs → c ≤ c' → n' ≤ n →
    A.gap c n = .ok d → A.gap c' n' = .ok d' → d' ≤ d
  gap_nonpos : ∀ {c n d}, c ∈ costs → n ∈ costs → n ≤ c → A.gap c n = .ok d → d ≤ 0
  gap_nonneg : ∀ {c n d}, c ∈ costs → n ∈ costs → c ≤ n → A.gap c n = .ok d → 0 ≤ d
  -- differences are told from zero by their order
  below : ∀ {d}, A.IsGap costs d → (A.isBelowZero d = true ↔ ¬ 0 ≤ d)
  above : ∀ {d d'}, A.IsGap costs d → A.IsGap costs d' → 0 ≤ d' → d' ≤ d → 0 ≤ d
  -- and so are temperatures, as far as they are numbers
  cold : ∀ {t}, t ∈ temperatures → ∃ b, A.isCold t = .ok b ∧ (b = true ↔ t ≤ 0)
  warm : ∀ {t}, t ∈ temperatures → 0 < t → ¬ t ≤ 0
  warmer : ∀ {t t'}, t ∈ temperatures → t' ∈ temperatures → t ≤ t' → ¬ t ≤ 0 → 0 < t ∧ 0 < t'
  exponent : ∀ {d t}, A.IsGap costs d → t ∈ temperatures → ¬ t ≤ 0 → ∃ x, A.exponent d t = .ok x
  exponent_gap : ∀ {d d' t x x'}, A.IsGap costs d → A.IsGap costs d' → t ∈ temperatures →
    0 < t → d' ≤ d →
    A.exponent d t = .ok x → A.exponent d' t = .ok x' → x ≤ x'
  exponent_temperature : ∀ {d t t' x x'}, A.IsGap costs d → 0 ≤ d → t ∈ temperatures →
    t' ∈ temperatures → 0 < t → t ≤ t' →
    A.exponent d t = .ok x → A.exponent d t' = .ok x' → x ≤ x'
  exponent_nonneg : ∀ {d t x}, A.IsGap costs d → d ≤ 0 → t ∈ temperatures → 0 < t →
    A.exponent d t = .ok x → 0 ≤ x
  exp_mono : ∀ {x y}, x ≤ y → A.exp x ≤ A.exp y
  exp_zero : A.exp 0 = 1

end

/-! ### Decisions -/

section

variable {κ θ δ : Type} {A : Arithmetic κ θ δ} {current new : κ} {t : θ} {u : Float} {d : δ}

/-- Whether a candidate is accepted by a generator that draws this number, and how often it is
asked. -/
def decision (A : Arithmetic κ θ δ) (current new : κ) (t : θ) (u : Float) :
    Except Fault (Bool × ℕ) := do
  let v ← verdict A current new t
  return (v.settle (modifyGet fun drawn => (u, drawn + 1) : StateM ℕ Float)).run 0

/-- Accepted, with or without a draw. -/
def Accepts (A : Arithmetic κ θ δ) (current new : κ) (t : θ) (u : Float) : Prop :=
  ∃ drawn, decision A current new t u = .ok (true, drawn)

theorem decision_of_below (gap : A.gap current new = .ok d) (below : A.isBelowZero d = true) :
    decision A current new t u = .ok (true, 0) := by
  simp only [decision, verdict, gap, bind, Except.bind, if_pos below]
  rfl

theorem decision_of_cold (gap : A.gap current new = .ok d) (above : ¬ A.isBelowZero d = true)
    (cold : A.isCold t = .ok true) : decision A current new t u = .ok (false, 0) := by
  simp only [decision, verdict, gap, bind, Except.bind, if_neg above, cold, if_true]
  rfl

theorem decision_of_warm {x : Float} (gap : A.gap current new = .ok d)
    (above : ¬ A.isBelowZero d = true) (warm : A.isCold t = .ok false)
    (exponent : A.exponent d t = .ok x) :
    decision A current new t u = .ok (decide (u < A.exp x), 1) := by
  simp only [decision, verdict, gap, bind, Except.bind, if_neg above, warm, exponent,
    if_neg Bool.false_ne_true]
  rfl

end

/-! ### What makes a candidate more acceptable -/

section

variable {κ θ δ : Type} [LE κ] [LE θ] [LT θ] [OfNat θ 0] [LE δ] [OfNat δ 0]
  {A : Arithmetic κ θ δ} {costs : Set κ}
  {temperatures : Set θ} (orderly : A.Orderly costs temperatures) {c c' n n' : κ}
  {t t' : θ} {u u' : Float} {d : δ}

namespace Arithmetic.Orderly

include orderly

theorem isCold_true (ht : t ∈ temperatures) (cold : t ≤ 0) : A.isCold t = .ok true := by
  obtain ⟨b, answer, said⟩ := orderly.cold ht
  rwa [said.mpr cold] at answer

theorem isCold_false (ht : t ∈ temperatures) (warm : ¬ t ≤ 0) : A.isCold t = .ok false := by
  obtain ⟨b, answer, said⟩ := orderly.cold ht
  rwa [Bool.eq_false_iff.mpr (mt said.mp warm)] at answer

/-- A decision that is left to chance. -/
theorem decision_open (hd : A.IsGap costs d) (gap : A.gap c n = .ok d)
    (above : ¬ A.isBelowZero d = true) (ht : t ∈ temperatures) (warm : ¬ t ≤ 0) (u : Float) :
    ∃ x, A.exponent d t = .ok x ∧ decision A c n t u = .ok (decide (u < A.exp x), 1) := by
  obtain ⟨x, exponent⟩ := orderly.exponent hd ht warm
  exact ⟨x, exponent, decision_of_warm gap above (orderly.isCold_false ht warm) exponent⟩

/-- A lower difference and a higher temperature keep a chance that was high enough. -/
theorem chance_mono {d' : δ} {x x' : Float} (hd : A.IsGap costs d) (hd' : A.IsGap costs d')
    (nonneg : 0 ≤ d) (lower : d' ≤ d) (ht : t ∈ temperatures) (ht' : t' ∈ temperatures)
    (warm : 0 < t) (warm' : 0 < t') (warmer : t ≤ t') (exponent : A.exponent d t = .ok x)
    (exponent' : A.exponent d' t' = .ok x') (high : u < A.exp x) : u < A.exp x' := by
  obtain ⟨y, between⟩ := orderly.exponent hd ht' (orderly.warm ht' warm')
  have first :=
    orderly.exp_mono (orderly.exponent_temperature hd nonneg ht ht' warm warmer exponent between)
  have second := orderly.exp_mono (orderly.exponent_gap hd hd' ht' warm' lower between exponent')
  exact lt_of_below_of_le (lt_of_below_of_le high first) second

/-- What is accepted stays accepted when the candidate costs less, the current state more, the
temperature is higher and the number drawn lower. -/
theorem accepts_mono (hc : c ∈ costs) (hc' : c' ∈ costs) (hn : n ∈ costs) (hn' : n' ∈ costs)
    (ht : t ∈ temperatures) (ht' : t' ∈ temperatures) (cheaper : n' ≤ n) (costlier : c ≤ c')
    (warmer : t ≤ t') (less : u' ≤ u) (accepted : Accepts A c n t u) : Accepts A c' n' t' u' := by
  obtain ⟨d, gap⟩ := orderly.gap hc hn
  obtain ⟨d', gap'⟩ := orderly.gap hc' hn'
  have hd : A.IsGap costs d := ⟨c, hc, n, hn, gap⟩
  have hd' : A.IsGap costs d' := ⟨c', hc', n', hn', gap'⟩
  have lower := orderly.gap_mono hc hc' hn hn' costlier cheaper gap gap'
  by_cases below' : A.isBelowZero d' = true
  · exact ⟨0, decision_of_below gap' below'⟩
  -- the difference was not below zero either, so the candidate was left to chance, and it still is
  have nonneg' : 0 ≤ d' := not_not.mp (mt (orderly.below hd').mpr below')
  have nonneg := orderly.above hd hd' nonneg' lower
  have above : ¬ A.isBelowZero d = true := fun below => (orderly.below hd).mp below nonneg
  obtain ⟨drawn, accepted⟩ := accepted
  by_cases cold : t ≤ 0
  · rw [decision_of_cold gap above (orderly.isCold_true ht cold)] at accepted
    cases accepted
  · obtain ⟨warm, warm'⟩ := orderly.warmer ht ht' warmer cold
    obtain ⟨x, exponent, decided⟩ := orderly.decision_open hd gap above ht cold u
    obtain ⟨x', exponent', decided'⟩ :=
      orderly.decision_open hd' gap' below' ht' (orderly.warm ht' warm') u'
    rw [decided, Except.ok.injEq, Prod.mk.injEq, decide_eq_true_eq] at accepted
    have high := orderly.chance_mono hd hd' nonneg lower ht ht' warm warm' warmer exponent exponent'
      (lt_of_le_of_below less accepted.1)
    exact ⟨1, by rw [decided', decide_eq_true high]⟩

/-- A candidate that costs no more is accepted at temperatures above zero. -/
theorem accepts_of_le (hc : c ∈ costs) (hn : n ∈ costs) (ht : t ∈ temperatures) (cheap : n ≤ c)
    (warm : 0 < t) (small : u < 1) : Accepts A c n t u := by
  obtain ⟨d, gap⟩ := orderly.gap hc hn
  have hd : A.IsGap costs d := ⟨c, hc, n, hn, gap⟩
  by_cases below : A.isBelowZero d = true
  · exact ⟨0, decision_of_below gap below⟩
  obtain ⟨x, exponent, decided⟩ := orderly.decision_open hd gap below ht (orderly.warm ht warm) u
  have sure := orderly.exp_mono
    (orderly.exponent_nonneg hd (orderly.gap_nonpos hc hn cheap gap) ht warm exponent)
  rw [orderly.exp_zero] at sure
  exact ⟨1, by rw [decided, decide_eq_true (lt_of_below_of_le small sure)]⟩

/-- A candidate that costs as much or more is turned down at zero and below, without a draw. -/
theorem decision_of_ge (hc : c ∈ costs) (hn : n ∈ costs) (ht : t ∈ temperatures) (dear : c ≤ n)
    (cold : t ≤ 0) (u : Float) :
    decision A c n t u = .ok (false, 0) := by
  obtain ⟨d, gap⟩ := orderly.gap hc hn
  have above : ¬ A.isBelowZero d = true := fun below =>
    (orderly.below ⟨c, hc, n, hn, gap⟩).mp below (orderly.gap_nonneg hc hn dear gap)
  exact decision_of_cold gap above (orderly.isCold_true ht cold)

/-- A number is drawn exactly if the difference is not below zero and the temperature is not zero or
below. -/
theorem decision_draws (hc : c ∈ costs) (hn : n ∈ costs) (ht : t ∈ temperatures) (u : Float) :
    ∃ d accepted drawn, A.gap c n = .ok d ∧ decision A c n t u = .ok (accepted, drawn) ∧ drawn ≤ 1 ∧
      (drawn = 1 ↔ ¬ A.isBelowZero d = true ∧ ¬ t ≤ 0) := by
  obtain ⟨d, gap⟩ := orderly.gap hc hn
  by_cases below : A.isBelowZero d = true
  · exact ⟨d, true, 0, gap, decision_of_below gap below, zero_le_one,
      iff_of_false zero_ne_one fun h => h.1 below⟩
  by_cases cold : t ≤ 0
  · exact ⟨d, false, 0, gap, decision_of_cold gap below (orderly.isCold_true ht cold), zero_le_one,
      iff_of_false zero_ne_one fun h => h.2 cold⟩
  · obtain ⟨x, -, decided⟩ := orderly.decision_open ⟨c, hc, n, hn, gap⟩ gap below ht cold u
    exact ⟨d, _, 1, gap, decided, le_rfl, iff_of_true rfl ⟨below, cold⟩⟩

end Arithmetic.Orderly

end

/-! ### The arithmetic of doubles -/

/-- Finite temperatures above zero. -/
theorem isPositive_of_warm {t : Float} (finite : 0 < t → t.isFinite = true) (warm : 0 < t) :
    IsPositive t :=
  isPositive_of_lt (finite warm) (.inr ⟨.positive, rfl⟩) warm

/-- **Subtraction and division of doubles are orderly** for finite costs, and for temperatures that
are not infinite above zero: two costs may be infinitely far apart, and an infinite difference by an
infinite temperature is no number. -/
theorem doubles_orderly {exp : Float → Float}
    (exp_mono : ∀ {x y}, x ≤ y → exp x ≤ exp y) (exp_zero : exp 0 = 1) :
    { Arithmetic.doubles with exp := exp }.Orderly {c | c.isFinite = true}
      {t | 0 < t → t.isFinite = true} where
  gap _ _ := ⟨_, rfl⟩
  gap_mono hc hc' hn hn' costlier cheaper gap gap' := by
    cases gap
    cases gap'
    exact sub_le_sub_of_finite hn' hn hc' hc cheaper costlier
  gap_nonpos hc hn cheap gap := by
    cases gap
    exact (isNearest_sub hn hc).le isNearest_zero_float
      (sub_nonpos.mpr ((le_iff_exactValue hn hc).mp cheap))
  gap_nonneg hc hn dear gap := by
    cases gap
    exact isNearest_zero_float.le (isNearest_sub hn hc)
      (sub_nonneg.mpr ((le_iff_exactValue hc hn).mp dear))
  below := by
    rintro d ⟨c, hc, n, hn, gap⟩
    cases gap
    have number := (isNearest_sub hn hc).number
    have unfolded : (decide (n - c < 0) = true) ↔ ¬ 0 ≤ n - c := by
      rw [decide_eq_true_iff, le_iff_not_lt, and_iff_right ⟨rfl, number⟩, not_not]
    exact unfolded
  above _ _ nonneg lower := le_of_le_of_le nonneg lower
  cold _ := ⟨_, rfl, decide_eq_true_iff⟩
  warm _ warm cold := (le_iff_not_lt.mp cold).2 warm
  warmer {t t'} _ _ warmer cold := by
    obtain ⟨⟨number, -⟩, -⟩ := le_iff_not_lt.mp warmer
    have warm : 0 < t := by
      rw [le_iff_not_lt, and_iff_right ⟨number, rfl⟩, not_not] at cold
      exact cold
    exact ⟨warm, lt_of_below_of_le warm warmer⟩
  exponent _ _ _ := ⟨_, rfl⟩
  exponent_gap _ _ finite warm lower exponent exponent' := by
    cases exponent
    cases exponent'
    exact div_le_div_of_le (isPositive_of_warm finite warm) (neg_le_neg_of_le lower)
  exponent_temperature _ nonneg finite finite' warm warmer exponent exponent' := by
    cases exponent
    cases exponent'
    have warm' := lt_of_below_of_le warm warmer
    exact div_le_div_of_nonpos (isPositive_of_warm finite warm) (isPositive_of_warm finite' warm')
      (neg_nonpos_of_nonneg nonneg) warmer
  exponent_nonneg _ nonpos finite warm exponent := by
    cases exponent
    exact div_nonneg_of_nonneg (isPositive_of_warm finite warm) (neg_nonneg_of_nonpos nonpos)
  exp_mono := exp_mono
  exp_zero := exp_zero

/-- **Of doubles, the arithmetic of values judges as the arithmetic of doubles does.** -/
theorem verdict_floats (current new t : Float) :
    verdict Arithmetic.values (.float current) (.float new)
      (.float t) = verdict Arithmetic.doubles current new t := by
  have below : Arithmetic.values.isBelowZero (.float (new - current)) =
      Arithmetic.doubles.isBelowZero (new - current) :=
    Bool.eq_iff_iff.mpr
      ((any_lt_iff _).trans (Number.compare_eq_lt_iff.trans decide_eq_true_iff.symm))
  have cold : Arithmetic.values.isCold (.float t) = Arithmetic.doubles.isCold t :=
    Value.relate_atMost t 0
  have quotient : Arithmetic.values.exponent (.float (new - current)) (.float t) =
      if t == 0 then .error (.divisionByZero true) else .ok (-(new - current) / t) := rfl
  have unfolded : verdict Arithmetic.values (.float current) (.float new) (.float t) = (do
      if Arithmetic.values.isBelowZero (.float (new - current)) then return .accepted
      if ← Arithmetic.values.isCold (.float t) then return .rejected
      return .chance (Arithmetic.values.exp
        (← Arithmetic.values.exponent (.float (new - current)) (.float t)))) := rfl
  rw [unfolded, below, cold, quotient]
  by_cases zero : (t == 0) = true
  · -- zero is cold, so nothing is divided by it
    have turned : Arithmetic.doubles.isCold t = .ok true :=
      congrArg Except.ok (decide_eq_true (le_of_beq zero))
    rw [verdict, turned]
    rfl
  · rw [if_neg zero]
    rfl

/-! ### All arguments at once -/

section

variable {κ θ δ : Type} [LE κ] [LE θ] [LT θ] [OfNat θ 0] [LE δ] [OfNat δ 0]
  {A : Arithmetic κ θ δ} {costs : Set κ}
  {temperatures : Set θ} {c n : κ} {t : θ}

/-- **Acceptance is monotone in every argument and draws only when it must.**  What is accepted
stays accepted when the candidate costs less, the current state more, the temperature is higher and
the number drawn lower; a candidate that costs no more is accepted above zero, and one that costs no
less is turned down at zero and below; and one number is drawn if the difference is not below zero
and the temperature not zero or below, and none otherwise. -/
theorem decision_monotone (orderly : A.Orderly costs temperatures) (hc : c ∈ costs) (hn : n ∈ costs)
    (ht : t ∈ temperatures) (u : Float) :
    (∀ c' ∈ costs, ∀ n' ∈ costs, ∀ t' ∈ temperatures, ∀ u' : Float, n' ≤ n → c ≤ c' →
      t ≤ t' → u' ≤ u →
      Accepts A c n t u → Accepts A c' n' t' u') ∧
    (n ≤ c → 0 < t → u < 1 → Accepts A c n t u) ∧
    (c ≤ n → t ≤ 0 → ¬ Accepts A c n t u) ∧
    ∃ d accepted drawn, A.gap c n = .ok d ∧ decision A c n t u = .ok (accepted, drawn) ∧ drawn ≤ 1 ∧
      (drawn = 1 ↔ ¬ A.isBelowZero d = true ∧ ¬ t ≤ 0) := by
  refine ⟨?_, fun cheap warm small => orderly.accepts_of_le hc hn ht cheap warm small, ?_,
    orderly.decision_draws hc hn ht u⟩
  · intro c' hc' n' hn' t' ht' u' cheaper costlier warmer less accepted
    exact orderly.accepts_mono hc hc' hn hn' ht ht' cheaper costlier warmer less accepted
  · rintro dear cold ⟨drawn, accepted⟩
    rw [orderly.decision_of_ge hc hn ht dear cold u] at accepted
    cases accepted

end

/-- An exponential function of the coarsest kind: one from zero on and zero below. -/
def unitStep (x : Float) : Float := if 0 ≤ x then 1 else 0

theorem unitStep_mono {x y : Float} (h : x ≤ y) : unitStep x ≤ unitStep y := by
  unfold unitStep
  by_cases nonneg : 0 ≤ x
  · rw [if_pos nonneg, if_pos (le_of_le_of_le nonneg h)]
    decide +kernel
  · rw [if_neg nonneg]
    split <;> decide +kernel

/-- A candidate that costs the same is accepted, and so is one that costs less where the current
state costs more, at a higher temperature and with a lower number drawn. -/
theorem equal_accepted : Accepts { Arithmetic.doubles with exp := unitStep } 2 2 0.5 0.99 ∧
    Accepts { Arithmetic.doubles with exp := unitStep } 3 1 2 0.25 := by
  have finite : ∀ {x : Float}, x.isFinite = true → x ∈ {c : Float | c.isFinite = true} := fun h => h
  have mild : ∀ {x : Float}, x.isFinite = true → x ∈ {t : Float | 0 < t → t.isFinite = true} :=
    fun h _ => h
  have two : (2 : Float).isFinite = true := by decide +kernel
  have half : (0.5 : Float).isFinite = true := by decide +kernel
  have accepts := decision_monotone (doubles_orderly unitStep_mono rfl) (finite two)
    (finite two) (mild half) 0.99
  have equal := accepts.2.1 (by decide +kernel) (by decide +kernel) (by decide +kernel)
  exact ⟨equal, accepts.1 3 (finite (by decide +kernel)) 1 (finite (by decide +kernel)) 2
    (mild two) 0.25 (by decide +kernel)
    (by decide +kernel) (by decide +kernel) (by decide +kernel) equal⟩

/-- At a temperature that is no number a number is drawn, although the temperature is not above
zero. -/
theorem undefined_drawn :
    (∃ accepted, decision Arithmetic.doubles 0 0 (0 / 0) 0.5 = .ok (accepted, 1)) ∧
    ¬ (0 : Float) < 0 / 0 := by
  have above : ¬ Arithmetic.doubles.isBelowZero ((0 : Float) - 0) = true := by decide +kernel
  have warm : Arithmetic.doubles.isCold (0 / 0) = .ok false :=
    congrArg Except.ok (by decide +kernel)
  exact ⟨⟨_, decision_of_warm rfl above warm rfl⟩, by decide +kernel⟩

end Annealing
