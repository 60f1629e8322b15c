import Annealing.Document.Json.Reader
import Annealing.Proofs.Number.Layout
import Annealing.Proofs.Number.Mixed

/-!
# Document — reading written numbers

An integer is written by its digits, a double by a spelling of its shortest decimal, or as one of
the three words for the doubles without digits.  The reader finds the same number again, and leaves
what stands behind it, as long as that cannot be taken for more of the number.

* `Json.number_integer`: the reading of a written integer.
* `Json.number_spelling`: the reading of a spelled decimal.
* `Json.value_float`: the reading of a written double, whatever it is.
-/

namespace Annealing.Json

/-- What may stand behind a value: nothing, or a comma or a new line. -/
def Closes (rest : List Char) : Prop := ∀ c, rest.head? = some c → c = ',' ∨ c = '\n'

theorem Closes.nil : Closes [] := by
  intro c h
  cases h

theorem Closes.comma (rest : List Char) : Closes (',' :: rest) := by
  rintro c ⟨⟩
  exact .inl rfl

theorem Closes.newLine (rest : List Char) : Closes ('\n' :: rest) := by
  rintro c ⟨⟩
  exact .inr rfl

/-- What stands before more digits is no digit. -/
def EndsDigits (rest : List Char) : Prop := ∀ c, rest.head? = some c → c.isDigit = false

theorem Closes.endsDigits {rest : List Char} (h : Closes rest) : EndsDigits rest := by
  intro c hc
  rcases h c hc with rfl | rfl <;> rfl

/-! ### Digits -/

section

variable {digits rest : List Char} (all : ∀ c ∈ digits, c.isDigit = true) (ends : EndsDigits rest)

include all ends

/-- Digits are taken as far as they go. -/
theorem takeWhile_digits : (digits ++ rest).takeWhile Char.isDigit = digits := by
  rw [List.takeWhile_append_of_pos all]
  cases rest with
  | nil => rw [List.takeWhile_nil, List.append_nil]
  | cons c more =>
      have other : ¬ c.isDigit = true := by simp [ends c rfl]
      rw [List.takeWhile_cons_of_neg other, List.append_nil]

/-- What is behind the digits is left. -/
theorem dropWhile_digits : (digits ++ rest).dropWhile Char.isDigit = rest := by
  rw [List.dropWhile_append_of_pos all]
  cases rest with
  | nil => rfl
  | cons c more =>
      have other : ¬ c.isDigit = true := by simp [ends c rfl]
      rw [List.dropWhile_cons_of_neg other]

/-- The whole part of a number is read up to its last digit. -/
theorem whole_digits (lead : digits = ['0'] ∨ digits.head? ≠ some '0') :
    whole (digits ++ rest) = (digits, rest) := by
  rcases lead with rfl | lead
  · rfl
  · rw [whole.eq_2, takeWhile_digits all ends, dropWhile_digits all ends]
    -- a zero in front could only be one behind no digits at all
    rintro more more_eq
    cases digits with
    | nil =>
        have := ends '0' (by rw [List.nil_append] at more_eq; rw [more_eq]; rfl)
        exact absurd this (by decide)
    | cons c _ =>
        exact lead (congrArg List.head? (show c :: _ = '0' :: _ from more_eq) |>.trans rfl)

end

/-- The digits behind the point are read, and the point is left out if there are none. -/
theorem fraction_places (places : List Char) {rest : List Char}
    (all : ∀ c ∈ places, c.isDigit = true) (ends : EndsDigits rest)
    (other : ∀ c, rest.head? = some c → c ≠ '.') :
    fraction ((if places.isEmpty then [] else '.' :: places) ++ rest) =
      if places.isEmpty then none else some (places, rest) := by
  by_cases empty : places.isEmpty
  · rw [if_pos empty, if_pos empty, List.nil_append]
    unfold fraction
    split
    · exact absurd rfl (other '.' rfl)
    · rfl
  · rw [if_neg empty, if_neg empty]
    simp only [List.cons_append, fraction, takeWhile_digits all ends, dropWhile_digits all ends,
      empty]
    rfl

/-- The exponent is read with its sign. -/
theorem exponent_power (power : Option (Bool × List Char)) {rest : List Char}
    (all : ∀ negative digits, power = some (negative, digits) → digits ≠ [] ∧
      ∀ c ∈ digits, c.isDigit = true)
    (closes : Closes rest) :
    exponent (Spelling.powerText power ++ rest) = power.map fun _ =>
      (Spelling.powerValue power, rest) := by
  cases power with
  | none =>
      rw [Spelling.powerText, List.nil_append, Option.map_none]
      cases rest with
      | nil => rfl
      | cons c more => rcases closes c rfl with rfl | rfl <;> rfl
  | some power =>
      obtain ⟨negative, digits⟩ := power
      obtain ⟨some, all⟩ := all negative digits rfl
      have sign : Numeral.splitSign ((if negative then '-' else '+') :: (digits ++ rest)) =
          (negative, digits ++ rest) := by
        cases negative <;> rfl
      have empty : digits.isEmpty = false := by simp [some]
      simp only [Spelling.powerText, List.cons_append, exponent, true_or, if_true, sign,
        takeWhile_digits all closes.endsDigits, dropWhile_digits all closes.endsDigits, empty,
        Spelling.powerValue]
      rfl

/-! ### Numbers -/

/-- What starts with a digit has no sign in front. -/
theorem ne_minus_of_digits {digits rest : List Char} (nonempty : digits ≠ [])
    (all : ∀ c ∈ digits, c.isDigit = true) :
    ∀ more, digits ++ rest = '-' :: more → False := by
  intro more minus
  obtain ⟨c, digits, rfl⟩ := List.exists_cons_of_ne_nil nonempty
  obtain ⟨rfl, -⟩ := List.cons.inj minus
  exact absurd (all '-' List.mem_cons_self) (by decide)

section

variable {rest : List Char}

/-- Before an exponent, and before what closes a value, there are no more digits and no point. -/
theorem powerText_ends (power : Option (Bool × List Char)) (closes : Closes rest) :
    EndsDigits (Spelling.powerText power ++ rest) ∧
      ∀ c, (Spelling.powerText power ++ rest).head? = some c → c ≠ '.' := by
  cases power with
  | none =>
      refine ⟨closes.endsDigits, fun c hc => ?_⟩
      rcases closes c hc with rfl | rfl <;> decide
  | some power => exact ⟨by rintro c ⟨⟩; rfl, by rintro c ⟨⟩; decide⟩

theorem placesText_ends (places : List Char) (ends : EndsDigits rest) :
    EndsDigits ((if places.isEmpty then [] else '.' :: places) ++ rest) := by
  split
  · exact ends
  · rintro c ⟨⟩
    rfl

/-- What is taken for the places, and what is left behind them. -/
theorem fraction_parts (places rest : List Char) :
    (if places.isEmpty then none else some (places, rest)).elim [] Prod.fst = places ∧
      (if places.isEmpty then none else some (places, rest)).elim
        ((if places.isEmpty then [] else '.' :: places) ++ rest) Prod.snd = rest := by
  split
  · case isTrue empty => exact ⟨(List.isEmpty_iff.mp empty).symm, rfl⟩
  · exact ⟨rfl, rfl⟩

end

/-- **The reading of a spelled decimal**, behind a sign. -/
theorem number_spelling (negative : Bool) {s : Spelling} (proper : s.Proper)
    {rest : List Char} (closes : Closes rest) :
    number ((if negative then ['-'] else []) ++ s.text ++ rest) =
      .ok (.float (Binary64.ofDecimal negative (Numeral.valueOf s.digits) s.exponent), rest) := by
  obtain ⟨behind, noPoint⟩ := powerText_ends s.power closes
  have wholeRead := whole_digits proper.whole (placesText_ends s.places behind) proper.lead
  have nonempty : s.whole.isEmpty = false := by simp [proper.nonempty]
  have fractionRead := fraction_places s.places proper.places behind noPoint
  obtain ⟨placesRead, pointRead⟩ := fraction_parts s.places (Spelling.powerText s.power ++ rest)
  have powerRead := exponent_power s.power proper.power closes
  have fractional : ((if s.places.isEmpty then none
    else some (s.places, Spelling.powerText s.power ++ rest)).isNone &&
      (s.power.map fun _ => (Spelling.powerValue s.power, rest)).isNone) = false := by
    rcases proper.fractional with places | power
    · simp [places]
    · rw [Option.isNone_map, Option.isNone_eq_false_iff.mpr power, Bool.and_false]
  have text : s.text ++ rest =
      s.whole ++ ((if s.places.isEmpty then [] else '.' :: s.places) ++
        (Spelling.powerText s.power ++ rest)) := by
    simp only [Spelling.text, List.append_assoc]
  rw [List.append_assoc, text]
  cases negative
  case' true => rw [if_pos rfl, List.singleton_append, number.eq_1]
  case' false => rw [if_neg Bool.false_ne_true, List.nil_append,
      number.eq_2 _ (ne_minus_of_digits proper.nonempty proper.whole)]
  all_goals
    simp only [wholeRead, nonempty, fractionRead, pointRead, placesRead, powerRead, fractional,
      Bool.false_eq_true, if_true, if_false]
    rw [Spelling.digits, Spelling.exponent]
    cases s.power <;> rfl

/-- **The reading of a written integer.** -/
theorem number_integer {n : ℤ} (short : (Decimal.natural n.natAbs).length ≤ Numeral.digitLimit)
    {rest : List Char} (closes : Closes rest) :
    number (Decimal.integer n ++ rest) = .ok (.int n, rest) := by
  have all : ∀ c ∈ Decimal.natural n.natAbs, c.isDigit = true := fun c hc =>
    Decimal.isDigit_of_mem_natural hc
  have wholeRead := whole_digits all closes.endsDigits (by
    rcases Nat.eq_zero_or_pos n.natAbs with zero | pos
    · exact .inl (by rw [zero]; rfl)
    · exact .inr (Decimal.natural_head pos))
  have nonempty : (Decimal.natural n.natAbs).isEmpty = false := by simp [Decimal.natural_ne_nil]
  have fractionRead := fraction_places [] nofun closes.endsDigits fun c hc => by
    rcases closes c hc with rfl | rfl <;> decide
  have powerRead := exponent_power none nofun closes
  simp only [List.isEmpty_nil, if_true, List.nil_append, Spelling.powerText]
    at fractionRead powerRead
  unfold Decimal.integer
  split
  case' isTrue negative => rw [List.cons_append, number.eq_1]
  case' isFalse negative => rw [number.eq_2 _ (ne_minus_of_digits (Decimal.natural_ne_nil _) all)]
  all_goals
    simp only [wholeRead, nonempty, fractionRead, Option.elim_none, powerRead, Option.map_none,
      Option.isNone_none, Bool.and_self, Bool.false_eq_true, if_true, if_false, short.not_gt,
      Decimal.valueOf_natural]
    congr 3
    omega

/-! ### Numbers as values -/

/-- A text that starts with a digit, behind a sign, holds a number. -/
theorem value_of_digits (fuel depth : ℕ) (negative : Bool) {digits : List Char}
    (nonempty : digits ≠ []) (all : ∀ c ∈ digits, c.isDigit = true) (rest : List Char) :
    value (fuel + 1) depth ((if negative then ['-'] else []) ++ (digits ++ rest)) =
      number ((if negative then ['-'] else []) ++ (digits ++ rest)) := by
  obtain ⟨c, digits, rfl⟩ := List.exists_cons_of_ne_nil nonempty
  have digit := all c List.mem_cons_self
  have differs : ∀ d : Char, d.isDigit = false → d ≠ c := by
    rintro d other rfl
    rw [digit] at other
    cases other
  have quote := differs '"' rfl
  have bracket := differs '[' rfl
  have brace := differs '{' rfl
  have noWord : word? ((if negative then ['-'] else []) ++ (c :: digits ++ rest)) = none := by
    have n := differs 'n' rfl
    have t := differs 't' rfl
    have f := differs 'f' rfl
    have N := differs 'N' rfl
    have I := differs 'I' rfl
    have minus := differs '-' rfl
    cases negative <;> simp [word?, words, List.isPrefixOf, n, t, f, N, I, minus]
  cases negative with
  | true =>
      simp only [if_true, List.singleton_append] at noWord ⊢
      rw [value, noWord] <;> (rintro _ ⟨⟩)
  | false =>
      simp only [Bool.false_eq_true, if_false, List.nil_append, List.cons_append] at noWord ⊢
      rw [value]
      · rw [noWord]
      · rintro _ ⟨⟩
        exact quote rfl
      · rintro _ ⟨⟩
        exact bracket rfl
      · rintro _ ⟨⟩
        exact brace rfl

/-- **The reading of a written integer**, as a value. -/
theorem value_integer (fuel depth : ℕ) {n : ℤ}
    (short : (Decimal.natural n.natAbs).length ≤ Numeral.digitLimit) {rest : List Char}
    (closes : Closes rest) :
    value (fuel + 1) depth (Decimal.integer n ++ rest) = .ok (.int n, rest) := by
  rw [← number_integer short closes]
  have sign :
      Decimal.integer n = (if decide (n < 0) then ['-'] else []) ++ Decimal.natural n.natAbs := by
    by_cases neg : n < 0 <;> simp [Decimal.integer, neg]
  rw [sign, List.append_assoc]
  exact value_of_digits fuel depth _ (Decimal.natural_ne_nil _)
    (fun c hc => Decimal.isDigit_of_mem_natural hc) rest

/-- **The reading of a written double.** -/
theorem value_float (fuel depth : ℕ) (x : Float) {rest : List Char} (closes : Closes rest) :
    value (fuel + 1) depth (Layout.document.float x ++ rest) = .ok (.float x, rest) := by
  cases parts : Binary64.ofFloat? x with
  | some b =>
      obtain ⟨s, text, proper, read⟩ := Layout.float_spelling parts
      have written : Layout.document.float x = (if b.negative then ['-'] else []) ++ s.text := by
        rw [Layout.float, parts, ← text]
      have read := read ▸ number_spelling b.negative proper closes
      rw [written, ← read, Spelling.text]
      simp only [List.append_assoc]
      exact value_of_digits fuel depth _ proper.nonempty proper.whole _
  | none =>
      rw [Layout.float, parts]
      rcases eq_of_ofFloat_none parts with ⟨notANumber, same⟩
        | ⟨number, ⟨below, same⟩ | ⟨above, same⟩⟩
      · simp only [notANumber, if_true]
        rw [same]
        rfl
      · simp only [number, below, Bool.false_eq_true, if_true, if_false]
        rw [same]
        rfl
      · simp only [number, above, Bool.false_eq_true, if_false]
        rw [same]
        rfl

/-- **No two doubles have the same text** in documents. -/
theorem document_injective : Function.Injective Layout.document.float := by
  intro x y same
  have read := value_float 0 0 x .nil
  rw [same, value_float 0 0 y .nil] at read
  cases read
  rfl

end Annealing.Json
