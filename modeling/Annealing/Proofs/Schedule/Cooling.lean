import Annealing.Proofs.Number.Product
import Annealing.Proofs.Schedule.Count
import Annealing.Proofs.Search.Course
import Mathlib.Data.List.Chain

/-!
# Schedule — cooling by a factor below one

A temperature that is multiplied by a factor between zero and one should become smaller.  On doubles
it need not: near the smallest ones the product may round back to the temperature it came from, and
then it does so at every level.

**When a schedule cools** (`Schedule.geometric_cools_iff`).  Take a factor between zero and one, a
finite initial temperature and a finite minimum at or above zero.  Every level is below the one
before it, and the levels come to an end, exactly if the initial temperature is not above the
minimum or the factor moves the number of units that follows on the minimum (`Stalls`).  The
schedule then has as many levels as are counted, and a search over it is one trial after the other.

Nothing stalls above `2 ^ 52` units (`le_of_stalls`), so all is well above the smallest normal
double.  Down from `5e-324` by `0.99`, nothing ever changes.
-/

namespace Annealing

/-! ### One level -/

section

variable {x factor : Float} (above : 0 < factor) (below : factor < 1)

include above below

theorem units_cooled (hx : IsPositive x) :
    IsNonnegative (x * factor) ∧ units (x * factor) = productUnits (units x) (units factor) :=
  have positive := isPositive_of_between above below
  units_mul hx positive (units_lt_of_lt_one positive below)

/-- A temperature becomes smaller unless it stalls. -/
theorem units_cooled_lt (hx : IsPositive x) (moves : ¬ Stalls (units factor) (units x)) :
    units (x * factor) < units x := by
  have lack := lack_of_between above below
  rw [(units_cooled above below hx).2]
  refine lt_of_le_of_ne (productUnits_le hx.short (below_of_lack lack)) fun same => moves ?_
  exact (productUnits_eq_iff lack hx.short hx.units_pos).mp same

end

/-! ### Doubles as arguments -/

namespace Schedule

/-- Of three doubles, the schedule is the geometric one. -/
theorem ofValues_floats (initial factor minimum : Float) :
    ofValues (.float initial) (.float factor)
      (.float minimum) = .ok (geometric initial factor minimum) := by
  have above : (fun t => Value.relate .greater (.float t) (.float minimum)) = fun t =>
      .ok (decide (t > minimum)) :=
    funext fun t => Value.relate_greater t minimum
  have unfolded : ofValues (.float initial) (.float factor) (.float minimum) = .ok
      { first := initial, above := fun t => Value.relate .greater (.float t) (.float minimum),
        cooled := fun t => .ok (t * factor) } := rfl
  rw [unfolded, above]
  rfl

variable {initial factor minimum : Float}

/-! ### All levels -/

/-- Where the number of units that follows on the minimum is moved, every temperature cools down to
the minimum. -/
theorem levels_of_moves (hm : IsNonnegative minimum) (above : 0 < factor) (below : factor < 1)
    (moves : ¬ Stalls (units factor) (units minimum + 1)) :
    ∀ {x : Float}, IsNonnegative x →
      ∃ ts, (geometric initial factor minimum).Levels x ts ∧ ts.IsChain (· > ·) ∧
        ∀ t ∈ ts.head?, t = x := by
  intro x hx
  -- a level above the minimum has fewer units behind it
  induction hn : units x using Nat.strong_induction_on generalizing x with
  | _ n ih =>
      subst hn
      by_cases stands : minimum < x
      · have more := (lt_iff_units hm hx).mp stands
        have positive := hx.positive (Nat.lt_of_le_of_lt (Nat.zero_le _) more)
        have moves' : ¬ Stalls (units factor) (units x) := fun stalls =>
          moves (stalls_of_le (lack_of_between above below) stalls more)
        have nonnegative := (units_cooled above below positive).1
        have less := units_cooled_lt above below positive moves'
        obtain ⟨ts, levels, chain, head⟩ := ih _ less nonnegative rfl
        refine ⟨x :: ts, .more (congrArg _ (decide_eq_true stands)) rfl levels, ?_, fun t ht => ?_⟩
        · refine List.isChain_cons.mpr ⟨fun t ht => ?_, chain⟩
          rw [head t ht]
          exact (lt_iff_units nonnegative hx).mpr less
        · exact (Option.some.inj ht).symm
      · exact ⟨[], .stop (congrArg _ (decide_eq_false stands)), .nil, by simp⟩

/-- Where that number stalls, no temperature above the minimum comes down to it. -/
theorem not_levels_of_stalls (hm : IsNonnegative minimum) (above : 0 < factor) (below : factor < 1)
    (stalls : Stalls (units factor) (units minimum + 1)) {x : Float} {ts : List Float}
    (h : (geometric initial factor minimum).Levels x ts) (hx : IsNonnegative x) :
    ¬ minimum < x := by
  induction h with
  | @stop x h => exact of_decide_eq_false (Except.ok.inj h)
  | @more x x' ts h c _ ih =>
      intro stands
      obtain rfl : x * factor = x' := Except.ok.inj c
      have more := (lt_iff_units hm hx).mp stands
      have positive := hx.positive (Nat.lt_of_le_of_lt (Nat.zero_le _) more)
      obtain ⟨nonnegative, value⟩ := units_cooled above below positive
      refine ih nonnegative ((lt_iff_units hm nonnegative).mpr ?_)
      rw [value]
      exact le_productUnits (lack_of_between above below) stalls
        (Nat.succ_pos _) positive.short more

/-! ### Schedules that cool -/

/-- Counting the levels of three doubles comes to their number. -/
theorem lengthOfValues_floats {ts : List Float}
    (h : (geometric initial factor minimum).Levels initial ts) :
    lengthOfValues (.float initial) (.float factor) (.float minimum) = .ok ts.length := by
  have counted := @lengthOfValues_of_levels (.float initial) (.float factor)
    (.float minimum) _ _ (ofValues_floats _ _ _) h
  refine counted.trans (congrArg Except.ok ?_)
  by_cases exit :
    ((Number.float initial).compare? (.float minimum)).any Relation.atMost.holds = true
  · rw [if_pos exit]
    cases h with
    | stop _ => rfl
    | more above _ _ =>
        have stands : initial > minimum := of_decide_eq_true (Except.ok.inj above)
        exact absurd (Number.compare_eq_gt_iff.mpr stands) (Number.not_gt_of_atMost exit)
  · rw [if_neg exit]

/-- A schedule of three doubles has the levels `ts`, each of them below the one before it, and comes
to an end. -/
structure Cools (initial factor minimum : Float) (ts : List Float) : Prop where
  levels : ∀ n, (ofValues (.float initial) (.float factor) (.float minimum) >>= fun s => s.take n) =
    .ok (ts.take n, decide (ts.length ≤ n))
  decreasing : ts.IsChain (· > ·)
  /-- Counting the levels comes to their number. -/
  length : lengthOfValues (.float initial) (.float factor) (.float minimum) = .ok ts.length
  /-- A search over the schedule is its start and one trial after the other. -/
  run : ∀ {ω σ κ : Type} (S : Search ω σ κ), S.options.schedule = geometric initial factor minimum →
    ∀ x, S.run x = Search.inWorld (S.start x) >>= S.course (S.agenda ts)

theorem cools_iff {ts : List Float} : Cools initial factor minimum ts ↔
    (geometric initial factor minimum).Levels initial ts ∧ ts.IsChain (· > ·) := by
  constructor
  · rintro ⟨levels, decreasing, -, -⟩
    have all := levels ts.length
    rw [List.take_length, decide_eq_true le_rfl] at all
    obtain ⟨schedule, same, all⟩ := except_bind_ok_iff.mp all
    cases (ofValues_floats _ _ _).symm.trans same
    exact ⟨.of_takeFrom all, decreasing⟩
  · rintro ⟨levels, decreasing⟩
    refine ⟨fun n => ?_, decreasing, lengthOfValues_floats levels, fun S same x => ?_⟩
    · exact except_bind_ok_iff.mpr ⟨_, ofValues_floats _ _ _, levels.takeFrom_eq n⟩
    · exact S.run_eq_course (by rwa [same]) x

/-- **When a schedule cools by a factor below one and comes to an end.** -/
theorem geometric_cools_iff (hi : initial.isFinite = true) (hm : minimum.isFinite = true)
    (nonnegative : 0 ≤ minimum) (above : 0 < factor) (below : factor < 1) :
    (∃ ts, Cools initial factor minimum ts) ↔
      ¬ initial > minimum ∨ ¬ Stalls (units factor) (units minimum + 1) := by
  have hm := isNonnegative_of_le hm nonnegative
  simp only [cools_iff]
  by_cases stands : initial > minimum
  · have positive := isPositive_of_lt hi hm stands
    constructor
    · rintro ⟨ts, levels, -⟩
      exact .inr fun stalls =>
        not_levels_of_stalls hm above below stalls levels (.inl positive) stands
    · intro moves
      have moves := moves.resolve_left (not_not.mpr stands)
      obtain ⟨ts, levels, chain, -⟩ := levels_of_moves hm above below moves (.inl positive)
      exact ⟨ts, levels, chain⟩
  · exact iff_of_true ⟨[], .stop (congrArg _ (decide_eq_false stands)), .nil⟩ (.inl stands)

theorem halving_cools : ∃ ts, Cools 2 0.5 0 ts :=
  (geometric_cools_iff (by decide +kernel) (by decide +kernel)
    (by decide +kernel) (by decide +kernel)
    (by decide +kernel)).mpr (.inr (by decide +kernel))

/-- From the smallest double down by 0.99, nothing ever changes. -/
theorem smallest_never_ends :
    (5e-324 : Float).isFinite = true ∧ (0 : Float).isFinite = true ∧ (0 : Float) ≤ 0 ∧
    (0 : Float) < 0.99 ∧
      (0.99 : Float) < 1 ∧ ¬ (geometric 5e-324 0.99 0).Ends := by
  have zero : IsNonnegative 0 := .inr ⟨.positive, rfl⟩
  refine ⟨?_, ?_, ?_, ?_, ?_, fun ⟨ts, levels⟩ => ?_⟩
  case refine_6 =>
    refine not_levels_of_stalls zero ?_ ?_ ?_ levels
      (isNonnegative_of_le ?_ ?_) ?_ <;> decide +kernel
  all_goals decide +kernel

end Schedule

end Annealing
