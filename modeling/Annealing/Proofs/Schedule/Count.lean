import Annealing.Proofs.Number.Monotone
import Annealing.Proofs.Schedule.Levels

/-!
# Schedule — the exit before the count

The levels of a schedule are counted one by one, unless the initial temperature is at most the
minimum as both are given: then there are none.  The schedule itself starts at the initial
temperature as a double and compares that one with the minimum.

**The exit is honest for all numbers but some pairs of large integers**
(`Schedule.counts_levels_iff`).  An integer is not rounded past a double, so with a double for a
minimum both comparisons agree.  Two integers are compared exactly before they are rounded; there
the initial temperature may be brought to a double above a minimum that it is at most itself
(`Schedule.RoundsPast`).  Such an integer has more than 53 binary digits
(`Schedule.RoundsPast.large`).
-/

namespace Annealing

/-! ### Numbers as arguments -/

theorem Value.relate_numbers (r : Relation) (m n : Number) :
    Value.relate r m.toValue n.toValue = .ok ((m.compare? n).any r.holds) := by
  cases m <;> cases n <;> rfl

namespace Number

theorem toReal_toValue (m : Number) : m.toValue.toReal = m.toReal := by
  cases m <;> rfl

/-- A comparison in which the first number is above the second. -/
theorem any_greater_iff {o : Option Ordering} :
    o.any Relation.greater.holds = true ↔ o = some .gt := by
  rcases o with _ | _ | _ | _ <;> decide

theorem atMost_ints {a b : ℤ} :
    ((Number.int a).compare? (.int b)).any Relation.atMost.holds = true ↔ a ≤ b := by
  rw [compare?, Option.any_some, Relation.holds, bne_iff_ne, ne_eq, Int.compare_eq_gt, not_lt]

theorem not_gt_of_atMost {o : Option Ordering} (h : o.any Relation.atMost.holds = true) :
    o ≠ some .gt := by
  rintro rfl
  cases h

theorem realOfInt_ok {a : ℤ} {x : Float} (brought : realOfInt a = .ok x) :
    x = Binary64.ofInt a ∧ x.isInf = false := by
  unfold realOfInt at brought
  simp only at brought
  split at brought
  · cases brought
  · next finite =>
    cases brought
    exact ⟨rfl, Bool.eq_false_iff.mpr finite⟩

/-- A number that is not infinite has parts. -/
theorem exists_parts {x : Float} (number : x.isNaN = false) (finite : x.isInf = false) :
    ∃ c, Binary64.ofFloat? x = some c := by
  refine Option.ne_none_iff_exists'.mp fun none => ?_
  rcases eq_of_ofFloat_none none with ⟨undefined, -⟩ | ⟨-, ⟨-, rfl⟩ | ⟨-, rfl⟩⟩
  · rw [number] at undefined
    cases undefined
  · exact absurd finite (by decide +kernel)
  · exact absurd finite (by decide +kernel)

/-- An integer that is at most a double is not brought to a greater one. -/
theorem not_gt_of_atMost_double {a : ℤ} {x y : Float} (brought : realOfInt a = .ok x)
    (h : ((Number.int a).compare? (.float y)).any Relation.atMost.holds = true) :
    (Number.float x).compare? (.float y) ≠ some .gt := by
  intro above
  have less : y < x := compare_eq_gt_iff.mp above
  obtain ⟨number, number'⟩ := number_of_lt less
  obtain ⟨rfl, finite⟩ := realOfInt_ok brought
  obtain ⟨c, parts⟩ := exists_parts number' finite
  have atMost : place (.int a) ≤ place (.float y) := by
    refine not_lt.mp fun below => ?_
    rw [compare?, (compareFloatInt_iff number a).1.mpr below] at h
    cases h
  have greater : place (.float y) < place (.float (Binary64.ofInt a)) :=
    (below_iff (a := .float y) (b := .float _) number number').mp (if_pos less)
  exact absurd (place_ofInt_le parts number atMost) (not_le.mpr greater)

/-- A double that compares with an integer is a number. -/
theorem number_of_compareFloatInt {x : Float} {n : ℤ} {o : Ordering}
    (h : compareFloatInt x n = some o) :
    x.isNaN = false := by
  unfold compareFloatInt at h
  cases parts : Binary64.ofFloat? x with
  | some b =>
      rw [ofFloat_eq] at parts
      have number : x.isNaN = x.toModel.unpack.isNaN := rfl
      rw [number]
      cases unpacked : x.toModel.unpack with
      | notANumber =>
          rw [unpacked] at parts
          cases parts
      | _ => rfl
  | none =>
      rw [parts] at h
      cases undefined : x.isNaN with
      | true =>
          rw [undefined] at h
          cases h
      | false => rfl

end Number

namespace Schedule

/-! ### The exit -/

/-- Of two integers the initial temperature is at most the minimum, and its double above it. -/
def RoundsPast : Number → Number → Prop
  | .int a, .int b => a ≤ b ∧ (Number.float (Binary64.ofInt a)).compare? (.int b) = some .gt
  | _, _ => False

theorem RoundsPast.atMost {initial minimum : Number} (h : RoundsPast initial minimum) :
    (initial.compare? minimum).any Relation.atMost.holds = true := by
  cases initial with
  | float y => exact h.elim
  | int a =>
      cases minimum with
      | float y => exact h.elim
      | int b => exact Number.atMost_ints.mpr h.1

/-- **Only integers of more than 53 binary digits are rounded past another one.** -/
theorem RoundsPast.large {initial minimum : Number} (h : RoundsPast initial minimum) {x : Float}
    (first : initial.toReal = .ok x) : ∃ a : ℤ, initial = .int a ∧ 2 ^ 53 ≤ a.natAbs := by
  cases initial with
  | float y => exact h.elim
  | int a =>
      cases minimum with
      | float y => exact h.elim
      | int b =>
          obtain ⟨atMost, above⟩ := h
          refine ⟨a, rfl, not_lt.mp fun small => ?_⟩
          have number := Number.number_of_compareFloatInt above
          obtain ⟨rfl, finite⟩ := Number.realOfInt_ok first
          obtain ⟨c, parts⟩ := Number.exists_parts number finite
          have greater := (Number.compareFloatInt_iff number b).2.mp above
          rw [Number.place_ofInt_of_small small parts, ← Number.below_iff rfl rfl, Number.compare?,
            Option.some.injEq, Int.compare_eq_lt] at greater
          omega

variable {initial factor minimum : Number}

/-- Where the exit is taken, the first level is above the minimum exactly if it was rounded past
it. -/
theorem above_iff_roundsPast {x : Float} (first : initial.toReal = .ok x)
    (exit : (initial.compare? minimum).any Relation.atMost.holds = true) :
    (Number.float x).compare? minimum = some .gt ↔ RoundsPast initial minimum := by
  cases initial with
  | float y =>
      cases first
      exact iff_of_false (Number.not_gt_of_atMost exit) id
  | int a =>
      cases minimum with
      | float y => exact iff_of_false (Number.not_gt_of_atMost_double first exit) id
      | int b =>
          obtain ⟨rfl, -⟩ := Number.realOfInt_ok first
          exact (and_iff_right (Number.atMost_ints.mp exit)).symm

/-- **How the levels are counted.** -/
theorem lengthOfValues_of_levels {s : Schedule Float} {ts : List Float}
    (made : ofValues initial.toValue factor.toValue minimum.toValue = .ok s)
    (levels : s.Levels s.first ts) :
    lengthOfValues initial.toValue factor.toValue minimum.toValue =
      .ok (if (initial.compare? minimum).any Relation.atMost.holds then 0 else ts.length) := by
  rw [lengthOfValues, Value.relate_numbers, made]
  cases (initial.compare? minimum).any Relation.atMost.holds with
  | true => rfl
  | false => exact levels.length_eq

/-- What the schedule of three numbers starts with, and when it goes on. -/
theorem ofValues_ok {s : Schedule Float}
    (made : ofValues initial.toValue factor.toValue minimum.toValue = .ok s) :
    initial.toReal = .ok s.first ∧
      ∀ t, s.above t = .ok (((Number.float t).compare? minimum).any Relation.greater.holds) := by
  obtain ⟨x, first, made⟩ := except_bind_ok_iff.mp made
  cases made
  exact ⟨(Number.toReal_toValue initial).symm.trans first,
    fun t => Value.relate_numbers .greater (.float t) minimum⟩

/-- **The count is that of the levels**, for a schedule that ends, exactly if the initial
temperature is not rounded past the minimum.  If it is, the count is zero and there are levels. -/
theorem counts_levels_iff {n : ℕ} {ts : List Float}
    (ends : (ofValues initial.toValue factor.toValue minimum.toValue >>= fun s => s.take n) =
      .ok (ts, true)) :
    (lengthOfValues initial.toValue factor.toValue minimum.toValue = .ok ts.length ↔
      ¬ RoundsPast initial minimum) ∧
      (RoundsPast initial minimum →
        lengthOfValues initial.toValue factor.toValue minimum.toValue = .ok 0 ∧ ts ≠ [] ∧
          ∃ a : ℤ, initial = .int a ∧ 2 ^ 53 ≤ a.natAbs) := by
  obtain ⟨s, made, taken⟩ := except_bind_ok_iff.mp ends
  have levels := Levels.of_takeFrom taken
  obtain ⟨first, above⟩ := ofValues_ok made
  rw [lengthOfValues_of_levels made levels, Except.ok.injEq]
  by_cases exit : (initial.compare? minimum).any Relation.atMost.holds = true
  · -- the exit is taken, and there are levels exactly if the first one is above the minimum
    have some_iff : ts ≠ [] ↔ RoundsPast initial minimum := by
      rw [← above_iff_roundsPast first exit, ← Number.any_greater_iff]
      cases levels with
      | stop h =>
          rw [above, Except.ok.injEq] at h
          rw [h]
          decide
      | more h _ _ =>
          rw [above, Except.ok.injEq] at h
          rw [h]
          exact iff_of_true nofun rfl
    rw [if_pos exit]
    refine ⟨?_, fun past => ⟨rfl, some_iff.mpr past, past.large first⟩⟩
    rw [← some_iff, not_not, eq_comm, List.length_eq_zero_iff]
  · rw [if_neg exit]
    have honest : ¬ RoundsPast initial minimum := fun past => exit past.atMost
    exact ⟨iff_of_true rfl honest, fun past => absurd past honest⟩

theorem fiveDown_counted : lengthOfValues (.int 5) (.float 0.5) (.float 1.5) = .ok 2 := by
  have ends : (ofValues (.int 5) (.float 0.5) (.float 1.5) >>= fun s => s.take 2) =
      .ok ([5, 2.5], true) := by rfl
  exact (@counts_levels_iff (.int 5) (.float 0.5) (.float 1.5) _ _ ends).1.mpr id

/-- **From a large odd integer down to itself**, no level is counted, though the schedule has one:
the integer is brought to the even one above it. -/
theorem largeOdd_uncounted :
    (ofValues (.int 9007199254740995) (.float 0.5) (.int 9007199254740995) >>= fun s => s.take 1) =
        .ok ([9007199254740996], true) ∧
      lengthOfValues (.int 9007199254740995) (.float 0.5) (.int 9007199254740995) = .ok 0 :=
        ⟨by rfl, by rfl⟩

end Schedule

end Annealing
