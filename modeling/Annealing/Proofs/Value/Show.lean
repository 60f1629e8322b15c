import Annealing.Proofs.Number.Layout
import Annealing.Proofs.Text.Plain
import Annealing.Proofs.Text.Whole
import Annealing.Value.Convert
import Annealing.Value.Show

/-!
# Value — which integers are written

An integer has a text if it has at most `Numeral.digitLimit` digits, which is if it lies between two
powers of ten (`Decimal.IsShort`).  Its text is its decimal form, and any other integer is refused.
The decimal form of such an integer is not read either (`Value.toInt_of_not_short`).
-/

namespace Annealing

namespace Decimal

/-- An integer that has a text. -/
def IsShort (n : ℤ) : Prop := (natural n.natAbs).length ≤ Numeral.digitLimit

instance decidableIsShort (n : ℤ) : Decidable (IsShort n) :=
  inferInstanceAs (Decidable (_ ≤ _))

/-- The digits of an integer are counted by the powers of ten. -/
theorem isShort_iff (n : ℤ) : IsShort n ↔ n.natAbs < 10 ^ Numeral.digitLimit :=
  Nat.length_toDigits_le_iff (by decide) (by decide)

/-! ### Reading digits -/

theorem isBlank_of_isDigit {c : Char} (digit : c.isDigit = true) : Numeral.isBlank c = false := by
  simp only [Char.isDigit, Bool.and_eq_true, decide_eq_true_eq] at digit
  have low : 48 ≤ c.toNat := digit.1
  have high : c.toNat ≤ 57 := digit.2
  have none_blank : ∀ n : ℕ, n ≤ 57 → 48 ≤ n →
      Text.blankRanges.any (fun r => r.1 ≤ n && n ≤ r.2) = false := by
    decide
  rw [Numeral.isBlank, Text.isBlank, none_blank _ high low, Bool.false_and]

theorem digitRun_digits {digits : List Char} (h : ∀ c ∈ digits, c.isDigit = true) (after : Bool) :
    Numeral.digitRun after digits = some (digits, []) := by
  induction digits generalizing after with
  | nil => rfl
  | cons c rest ih =>
      have behind := ih (fun d hd => h d (List.mem_cons_of_mem c hd)) true
      have digit := h c List.mem_cons_self
      rw [Numeral.digitRun, if_pos digit, behind]
      · rfl
      · rintro d more rfl
        cases digit

/-- Too many digits are refused where an integer is read. -/
theorem integer_of_long {n : ℕ} (long : ¬ IsShort n) :
    Numeral.integer (natural n) = .error (.tooLong (natural n).length) := by
  have digits : ∀ c ∈ natural n, c.isDigit = true := fun c hc => isDigit_of_mem_natural hc
  have plain : Numeral.plainDigits (natural n) = natural n := by
    refine (List.map_congr_left (g := id) fun c hc => if_pos ?_).trans (List.map_id _)
    have digit := digits c hc
    simp only [Char.isDigit, Bool.and_eq_true, decide_eq_true_eq] at digit
    have high : c.toNat ≤ 57 := digit.2
    omega
  have stripped : Text.strip Numeral.isBlank (natural n) = natural n := by
    obtain ⟨c, rest, first⟩ := List.exists_cons_of_ne_nil (natural_ne_nil n)
    refine Text.strip_of_ends ⟨c, rest, first, isBlank_of_isDigit (digits c (by simp [first]))⟩
      ⟨_, _, (List.dropLast_append_getLast (natural_ne_nil n)).symm, ?_⟩
    exact isBlank_of_isDigit (digits _ (List.getLast_mem _))
  rw [Numeral.integer, plain, stripped, splitSign_natural]
  simp only [digitRun_digits digits]
  exact if_pos (Nat.lt_of_not_le long)

end Decimal

namespace Value

open Decimal

theorem isShort_int (n : ℤ) : (int n).isShort = decide (IsShort n) := rfl

theorem written_of_short {n : ℤ} (short : IsShort n) :
    (int n).written = .ok (Text.ofChars (integer n)) :=
  if_pos (decide_eq_true short)

theorem written_of_not_short {n : ℤ} (long : ¬ IsShort n) :
    (int n).written = .error .tooLongToWrite :=
  if_neg (by rw [isShort_int, decide_eq_true_eq]; exact long)

/-- The decimal form of an integer that is not written is not read. -/
theorem toInt_of_not_short {n : ℕ} (long : ¬ IsShort n) :
    (text (Text.ofChars (natural n))).toInt = .error (.tooManyDigits (natural n).length) := by
  rw [toInt, Text.chars_ofChars, readInt, integer_of_long long]

end Value

end Annealing
