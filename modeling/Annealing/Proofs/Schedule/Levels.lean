import Annealing.Proofs.Effect
import Annealing.Schedule
import Mathlib.Data.Fintype.Card
import Mathlib.Data.List.Nodup

/-!
# Schedule — the levels of a schedule that ends

`Schedule.Levels s t ts` says that the schedule `s`, from the temperature `t` on, has exactly the
levels `ts` and ends behind them.  A schedule is finite when it has such a list from its first
temperature on (`Schedule.Ends`).

A schedule goes from each temperature to the next by a fixed rule.  So its levels are determined by
the first (`Levels.unique`), and none of them comes twice (`Levels.nodup`): from a temperature that
came again it would have two lists of levels of different lengths.  There are no more doubles than
patterns of 64 bits, so a finite schedule of doubles has at most `Schedule.levelLimit` levels
(`Levels.length_le`), and what counts so far never stops before the schedule does.

The start of a schedule and the number of its levels are those of this list (`Levels.takeFrom_eq`,
`Levels.length_eq`).
-/

namespace Annealing.Schedule

variable {τ : Type} {s : Schedule τ}

/-- From a temperature on, a schedule has exactly these levels. -/
inductive Levels (s : Schedule τ) : τ → List τ → Prop where
  | stop {t : τ} (h : s.above t = .ok false) : Levels s t []
  | more {t t' : τ} {ts : List τ} (h : s.above t = .ok true) (c : s.cooled t = .ok t')
      (r : Levels s t' ts) : Levels s t (t :: ts)

/-- A schedule that ends. -/
def Ends (s : Schedule τ) : Prop := ∃ ts, s.Levels s.first ts

namespace Levels

theorem unique {t : τ} {ts ts' : List τ} (h : s.Levels t ts) (h' : s.Levels t ts') : ts = ts' := by
  induction h generalizing ts' with
  | stop h =>
      cases h' with
      | stop _ => rfl
      | more h₁ _ _ => rw [h] at h₁; cases h₁
  | more h c _ ih =>
      cases h' with
      | stop h₁ => rw [h] at h₁; cases h₁
      | more _ c₁ r₁ =>
          rw [c] at c₁
          cases c₁
          rw [ih r₁]

/-- From each of its levels on, a schedule has the levels behind it. -/
theorem suffix {t x : τ} {ts : List τ} (h : s.Levels t ts) (hx : x ∈ ts) :
    ∃ rest, s.Levels x (x :: rest) ∧ rest.length < ts.length := by
  induction h with
  | stop _ => cases hx
  | @more t t' ts h c r ih =>
      rcases List.mem_cons.mp hx with rfl | hx
      · exact ⟨ts, .more h c r, Nat.lt_succ_self _⟩
      · obtain ⟨rest, hr, hl⟩ := ih hx
        exact ⟨rest, hr, Nat.lt_succ_of_lt hl⟩

theorem nodup {t : τ} {ts : List τ} (h : s.Levels t ts) : ts.Nodup := by
  induction h with
  | stop _ => exact List.nodup_nil
  | @more t t' ts h c r ih =>
      refine List.nodup_cons.mpr ⟨fun hx => ?_, ih⟩
      obtain ⟨rest, hr, hl⟩ := r.suffix hx
      -- the levels from `t` on are both `t :: ts` and the shorter list
      cases hr.unique (.more h c r)
      exact absurd hl (Nat.lt_irrefl _)

/-- The start of a schedule that ends. -/
theorem takeFrom_eq {t : τ} {ts : List τ} (h : s.Levels t ts) (n : ℕ) :
    s.takeFrom n t = .ok (ts.take n, decide (ts.length ≤ n)) := by
  induction h generalizing n with
  | stop h =>
      cases n with
      | zero => simp only [takeFrom, h]; rfl
      | succ n => simp only [takeFrom, h]; rfl
  | more h c _ ih =>
      cases n with
      | zero => simp only [takeFrom, h]; rfl
      | succ n =>
          simp only [takeFrom, h, c, bind, Except.bind, if_true, ih n, List.length_cons,
            Nat.add_le_add_iff_right]
          rfl

/-- A start of a schedule that nothing follows has all its levels. -/
theorem of_takeFrom {n : ℕ} :
    ∀ {t : τ} {ts : List τ}, s.takeFrom n t = .ok (ts, true) → s.Levels t ts := by
  induction n with
  | zero =>
      intro t ts h
      obtain ⟨above, ha, h⟩ := except_bind_ok_iff.mp h
      cases above with
      | true => cases h
      | false =>
          cases h
          exact .stop ha
  | succ n ih =>
      intro t ts h
      obtain ⟨above, ha, h⟩ := except_bind_ok_iff.mp h
      cases above with
      | true =>
          obtain ⟨t', ht, h⟩ := except_bind_ok_iff.mp h
          obtain ⟨⟨more, ended⟩, hmore, h⟩ := except_bind_ok_iff.mp h
          cases h
          exact .more ha ht (ih hmore)
      | false =>
          cases h
          exact .stop ha

/-- Counting the levels comes to their number, if there are less than the fuel. -/
theorem lengthFrom_eq {t : τ} {ts : List τ} (h : s.Levels t ts) :
    ∀ {fuel count : ℕ}, ts.length < fuel → s.lengthFrom fuel count t = .ok (count + ts.length) := by
  induction h with
  | stop h =>
      intro fuel count hf
      obtain ⟨fuel, rfl⟩ :=
        Nat.exists_eq_add_one_of_ne_zero (Nat.ne_of_gt (Nat.lt_of_le_of_lt (Nat.zero_le _) hf))
      simp only [lengthFrom, h]
      rfl
  | @more t t' ts h c _ ih =>
      intro fuel count hf
      obtain ⟨fuel, rfl⟩ :=
        Nat.exists_eq_add_one_of_ne_zero (Nat.ne_of_gt (Nat.lt_of_le_of_lt (Nat.zero_le _) hf))
      have hf' : ts.length < fuel := by simpa using hf
      have counted : count + 1 + ts.length = count + (t :: ts).length := by
        rw [List.length_cons]; omega
      simp only [lengthFrom, h, c]
      exact (ih hf').trans (by rw [counted])

end Levels

/-! ### Doubles -/

/-- The bit pattern of a double as a number below `2 ^ 64`. -/
def pattern (x : Float) : Fin (2 ^ 64) := x.toBits.toFin

theorem pattern_injective : Function.Injective pattern := by
  rintro ⟨⟨a, ha⟩⟩ ⟨⟨b, hb⟩⟩ h
  have hab : a = b := UInt64.toFin_inj.mp h
  subst hab
  rfl

/-- **A finite schedule of doubles is no longer than the levels are counted.** -/
theorem Levels.length_le {s : Schedule Float} {t : Float} {ts : List Float} (h : s.Levels t ts) :
    ts.length ≤ levelLimit := by
  have hn : (ts.map pattern).Nodup := h.nodup.map pattern_injective
  simpa [levelLimit] using hn.length_le_card

/-- Counting the levels of a finite schedule of doubles comes to their number. -/
theorem Levels.length_eq {s : Schedule Float} {ts : List Float} (h : s.Levels s.first ts) :
    s.length = .ok ts.length := by
  rw [Schedule.length, h.lengthFrom_eq (Nat.lt_succ_of_le h.length_le), Nat.zero_add]

end Annealing.Schedule
