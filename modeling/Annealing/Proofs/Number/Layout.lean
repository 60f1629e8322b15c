import Annealing.Proofs.Number.Shortest
import Annealing.Number.Layout
import Annealing.Number.Numeral

/-!
# Number — the parts of a written decimal

A decimal is written with a point or with an exponent, or with both, and zeros are put behind its
digits or left out there.  A `Spelling` is what a reader finds in the text: the digits before the
point, those behind it, and the exponent.

* `Spelling.Proper`: the digits are digits, and only zero starts with a zero.
* `Layout.decimal_spelling`: the text of a decimal is a proper spelling of its value.
* `Layout.Mark`: a character that numbers are written with.
* `Layout.float_spelling`: the text of a double, read as it is spelled, is the double.
-/

namespace Annealing

/-! ### Digits -/

namespace Numeral

/-- The value of digits is the one that the core library reads. -/
theorem valueOf_eq (digits : List Char) : valueOf digits = Nat.ofDigitChars 10 digits 0 := rfl

theorem valueOf_append (a b : List Char) :
    valueOf (a ++ b) = 10 ^ b.length * valueOf a + valueOf b := by
  rw [valueOf_eq, valueOf_eq, valueOf_eq, Nat.ofDigitChars_append,
    Nat.ofDigitChars_eq_ofDigitChars_zero]

theorem valueOf_zeros (n : ℕ) : valueOf (List.replicate n '0') = 0 := by
  rw [valueOf_eq, Nat.ofDigitChars_replicate_zero, Nat.mul_zero]

theorem valueOf_zeros_append (n : ℕ) (digits : List Char) :
    valueOf (List.replicate n '0' ++ digits) = valueOf digits := by
  rw [valueOf_append, valueOf_zeros, Nat.mul_zero, Nat.zero_add]

theorem valueOf_append_zeros (n : ℕ) (digits : List Char) :
    valueOf (digits ++ List.replicate n '0') = 10 ^ n * valueOf digits := by
  rw [valueOf_append, valueOf_zeros, List.length_replicate, Nat.add_zero]

/-- The integer of digits with a sign in front or without one. -/
def signedValue (text : List Char) : ℤ :=
  if (splitSign text).1 then -(valueOf (splitSign text).2 : ℤ) else valueOf (splitSign text).2

/-- Digits are worth less than a one with as many zeros. -/
theorem valueOf_lt {digits : List Char} (h : ∀ c ∈ digits, c.isDigit = true) :
    valueOf digits < 10 ^ digits.length := by
  induction digits with
  | nil => exact Nat.one_pos
  | cons c rest ih =>
      have digit : c.toNat - 48 ≤ 9 := by
        have := h c List.mem_cons_self
        simp only [Char.isDigit, Bool.and_eq_true, decide_eq_true_eq] at this
        have high : c.toNat ≤ 57 := this.2
        omega
      have less := ih fun d hd => h d (List.mem_cons_of_mem c hd)
      have first : valueOf [c] = c.toNat - 48 := by simp [valueOf]
      rw [← List.singleton_append, valueOf_append, first, List.length_append, List.length_singleton,
        Nat.add_comm 1, Nat.pow_succ]
      have : 10 ^ rest.length * (c.toNat - 48) ≤ 10 ^ rest.length * 9 := Nat.mul_le_mul_left _ digit
      omega

end Numeral

namespace Decimal

theorem valueOf_natural (n : ℕ) : Numeral.valueOf (natural n) = n :=
  Nat.ofDigitChars_ten_toDigits

theorem isDigit_of_mem_natural {n : ℕ} {c : Char} (h : c ∈ natural n) : c.isDigit = true :=
  Nat.isDigit_of_mem_toDigits (by decide) (by decide) h

theorem natural_ne_nil (n : ℕ) : natural n ≠ [] := Nat.toDigits_ne_nil

/-- Only zero is written with a zero in front. -/
theorem natural_head {n : ℕ} (pos : 0 < n) : (natural n).head? ≠ some '0' := by
  induction n using Nat.strongRecOn with
  | _ n ih =>
      unfold natural at ih ⊢
      rcases Nat.lt_or_ge n 10 with small | large
      · rw [Nat.toDigits_of_lt_base small, List.head?_cons]
        intro h
        have := Nat.digitChar_eq_zero.mp (Option.some.inj h)
        omega
      · rw [Nat.toDigits_of_base_le (by decide) large,
          List.head?_append_of_ne_nil _ Nat.toDigits_ne_nil]
        exact ih (n / 10) (by omega) (by omega)

theorem integer_ne_nil (n : ℤ) : integer n ≠ [] := by
  unfold integer
  split
  · nofun
  · exact natural_ne_nil _

theorem integer_natCast (n : ℕ) : integer n = natural n := by
  simp [integer]

/-- There is no sign in front of a natural number. -/
theorem splitSign_natural (n : ℕ) : Numeral.splitSign (natural n) = (false, natural n) := by
  obtain ⟨c, rest, digits⟩ := List.exists_cons_of_ne_nil (natural_ne_nil n)
  have digit : c.isDigit = true := isDigit_of_mem_natural (n := n) (by simp [digits])
  rw [digits, Numeral.splitSign]
  · rintro _ ⟨⟩
    cases digit
  · rintro _ ⟨⟩
    cases digit

/-- An integer is what its sign and its digits say. -/
theorem signedValue_integer (n : ℤ) : Numeral.signedValue (integer n) = n := by
  by_cases negative : n < 0
  · simp only [integer, negative, if_true, Numeral.signedValue, Numeral.splitSign, valueOf_natural]
    omega
  · simp only [integer, negative, if_false, Numeral.signedValue, splitSign_natural, valueOf_natural,
      Bool.false_eq_true]
    omega

theorem signedValue_natural (n : ℕ) : Numeral.signedValue (natural n) = n := by
  rw [← integer_natCast, signedValue_integer]

theorem integer_injective : Function.Injective integer :=
  Function.LeftInverse.injective signedValue_integer

end Decimal

/-! ### Spellings -/

/-- What a reader finds in the text of a decimal. -/
structure Spelling where
  whole : List Char
  /-- The digits behind the point; there is no point if there are none. -/
  places : List Char
  /-- The sign and the digits of the exponent. -/
  power : Option (Bool × List Char)

namespace Spelling

/-- The exponent, and the letter and the sign before it. -/
def powerText : Option (Bool × List Char) → List Char
  | none => []
  | some (negative, digits) => 'e' :: (if negative then '-' else '+') :: digits

def text (s : Spelling) : List Char :=
  s.whole ++ ((if s.places.isEmpty then [] else '.' :: s.places) ++ powerText s.power)

/-- The value of the exponent, zero if there is none. -/
def powerValue : Option (Bool × List Char) → ℤ
  | none => 0
  | some (negative, digits) =>
      if negative then -(Numeral.valueOf digits : ℤ) else Numeral.valueOf digits

/-- All digits before the exponent, without the point. -/
def digits (s : Spelling) : List Char := s.whole ++ s.places

/-- The exponent of the last digit. -/
def exponent (s : Spelling) : ℤ := powerValue s.power - s.places.length

/-- The number that is spelled. -/
def value (s : Spelling) : ℚ := Numeral.valueOf s.digits * 10 ^ s.exponent

/-- A spelling that a reader takes for a decimal, and for no integer. -/
structure Proper (s : Spelling) : Prop where
  nonempty : s.whole ≠ []
  whole : ∀ c ∈ s.whole, c.isDigit = true
  lead : s.whole = ['0'] ∨ s.whole.head? ≠ some '0'
  places : ∀ c ∈ s.places, c.isDigit = true
  power : ∀ negative digits, s.power = some (negative, digits) →
    digits ≠ [] ∧ ∀ c ∈ digits, c.isDigit = true
  fractional : s.places ≠ [] ∨ s.power.isSome

theorem Proper.digits {s : Spelling} (h : s.Proper) : ∀ c ∈ s.digits, c.isDigit = true := by
  intro c hc
  rcases List.mem_append.mp hc with hc | hc
  · exact h.whole c hc
  · exact h.places c hc

end Spelling

namespace Layout

/-! ### Trimmed digits -/

/-- The digits without the zeros behind them; the first digit stays. -/
def trimmed (digits : List Char) : List Char :=
  digits.take 1 ++ ((digits.drop 1).reverse.dropWhile (· == '0')).reverse

section

variable (digits : List Char)

theorem trimmed_zeros : ∃ zeros, digits = trimmed digits ++ List.replicate zeros '0' := by
  refine ⟨((digits.drop 1).reverse.takeWhile (· == '0')).length, ?_⟩
  have zeros : List.replicate ((digits.drop 1).reverse.takeWhile (· == '0')).length '0' =
      ((digits.drop 1).reverse.takeWhile (· == '0')).reverse := by
    symm
    rw [List.eq_replicate_iff]
    refine ⟨List.length_reverse, fun c hc => ?_⟩
    simpa using List.mem_takeWhile_imp (List.mem_reverse.mp hc)
  rw [zeros, trimmed, List.append_assoc, ← List.reverse_append, List.takeWhile_append_dropWhile,
    List.reverse_reverse, List.take_append_drop]

theorem length_trimmed_le : (trimmed digits).length ≤ digits.length := by
  obtain ⟨zeros, parts⟩ := trimmed_zeros digits
  rw [congrArg List.length parts, List.length_append]
  exact Nat.le_add_right _ _

variable {digits}

theorem mem_of_mem_trimmed {c : Char} (h : c ∈ trimmed digits) : c ∈ digits := by
  obtain ⟨zeros, parts⟩ := trimmed_zeros digits
  rw [parts]
  exact List.mem_append_left _ h

theorem trimmed_ne_nil (nonempty : digits ≠ []) : trimmed digits ≠ [] := by
  simp [trimmed, nonempty]

theorem trimmed_head (nonempty : digits ≠ []) : (trimmed digits).head? = digits.head? := by
  obtain ⟨zeros, parts⟩ := trimmed_zeros digits
  rw [congrArg List.head? parts, List.head?_append_of_ne_nil _ (trimmed_ne_nil nonempty)]

end

/-- The value of a decimal by its trimmed digits. -/
theorem value_trimmed (d : Decimal) :
    d.value = Numeral.valueOf (trimmed (Decimal.natural d.digits)) *
      10 ^ (d.exponent + (Decimal.natural d.digits).length -
        (trimmed (Decimal.natural d.digits)).length) := by
  obtain ⟨zeros, parts⟩ := trimmed_zeros (Decimal.natural d.digits)
  have length :
      (Decimal.natural d.digits).length = (trimmed (Decimal.natural d.digits)).length + zeros := by
    rw [congrArg List.length parts, List.length_append, List.length_replicate]
  have value :
      (d.digits : ℚ) = 10 ^ zeros * Numeral.valueOf (trimmed (Decimal.natural d.digits)) := by
    have padded := Numeral.valueOf_append_zeros zeros (trimmed (Decimal.natural d.digits))
    rw [← parts, Decimal.valueOf_natural] at padded
    exact_mod_cast padded
  have exponent :
    d.exponent + (Decimal.natural d.digits).length - (trimmed (Decimal.natural d.digits)).length =
      zeros + d.exponent := by
    rw [length]
    push_cast
    ring
  rw [Decimal.value, exponent, value, zpow_add₀ (by norm_num), zpow_natCast]
  ring

/-! ### Spelled decimals -/

/-- The text is a proper spelling of the value, with so many digits at most. -/
def Spells (text : List Char) (value : ℚ) (most : ℕ) : Prop :=
  ∃ s : Spelling, text = s.text ∧ s.Proper ∧ s.value = value ∧ s.digits.length ≤ most

theorem Spells.mono {text : List Char} {value : ℚ} {most more : ℕ}
    (h : Spells text value most) (le : most ≤ more) :
    Spells text value more := by
  obtain ⟨s, spelled, proper, same, few⟩ := h
  exact ⟨s, spelled, proper, same, few.trans le⟩

section

variable {digits : List Char} (nonempty : digits ≠ []) (all : ∀ c ∈ digits, c.isDigit = true)

include all in
theorem isDigit_zeros_append (n : ℕ) : ∀ c ∈ List.replicate n '0' ++ digits, c.isDigit = true := by
  intro c hc
  rcases List.mem_append.mp hc with hc | hc
  · rw [List.eq_of_mem_replicate hc]
    rfl
  · exact all c hc

include all in
theorem isDigit_append_zeros (n : ℕ) : ∀ c ∈ digits ++ List.replicate n '0', c.isDigit = true :=
  fun c hc =>
  isDigit_zeros_append all n c (List.mem_append.mpr (List.mem_append.mp hc).symm)

include nonempty all in
/-- The point stands before all digits, perhaps with zeros in between. -/
theorem positional_before (n : ℕ) :
    Spells (positional digits (-n)) (Numeral.valueOf digits * 10 ^ (-(n : ℤ) - digits.length))
      (digits.length + 1 + n) := by
  refine ⟨⟨['0'], List.replicate n '0' ++ digits, none⟩, ?_, ?_, ?_, ?_⟩
  · simp [positional, Spelling.text, Spelling.powerText, nonempty]
  · exact ⟨by simp, by simp, .inl rfl, isDigit_zeros_append all n,
      by simp, .inl (by simp [nonempty])⟩
  · have value : Numeral.valueOf (['0'] ++ (List.replicate n '0' ++ digits)) =
        Numeral.valueOf digits := by
      rw [← List.append_assoc]
      exact Numeral.valueOf_zeros_append (n + 1) digits
    simp only [Spelling.value, Spelling.digits, Spelling.exponent, Spelling.powerValue, value]
    congr 2
    rw [List.length_append, List.length_replicate]
    push_cast
    ring
  · simp only [Spelling.digits, List.length_append, List.length_replicate, List.length_singleton]
    omega

include nonempty all in
/-- The point stands among the digits. -/
theorem positional_among {n : ℕ} (pos : 0 < n) (inside : n < digits.length)
    (lead : digits.head? ≠ some '0') :
    Spells (positional digits n)
      (Numeral.valueOf digits * 10 ^ ((n : ℤ) - digits.length)) digits.length := by
  refine ⟨⟨digits.take n, digits.drop n, none⟩, ?_, ?_, ?_, ?_⟩
  · simp [positional, pos.ne', Spelling.text, Spelling.powerText, Nat.sub_eq_zero_of_le inside.le,
      inside.not_ge]
  · refine ⟨by simp [nonempty, pos.ne'], fun c hc => all c (List.mem_of_mem_take hc), .inr ?_,
      fun c hc => all c (List.mem_of_mem_drop hc), by simp, .inl (by simp [inside])⟩
    rwa [List.head?_take, if_neg pos.ne']
  · simp only [Spelling.value, Spelling.digits, Spelling.exponent, Spelling.powerValue,
      List.take_append_drop]
    congr 2
    rw [List.length_drop, Nat.cast_sub inside.le]
    ring
  · rw [Spelling.digits, List.take_append_drop]

include nonempty all in
/-- The point stands behind all digits, perhaps with zeros in between. -/
theorem positional_behind {n : ℕ} (pos : 0 < n) (outside : digits.length ≤ n)
    (lead : digits = ['0'] ∧ n = 1 ∨ digits.head? ≠ some '0') :
    Spells (positional digits n)
      (Numeral.valueOf digits * 10 ^ ((n : ℤ) - digits.length)) (n + 1) := by
  have rest : digits.drop n = [] := List.drop_eq_nil_of_le outside
  have whole : digits.take n = digits := List.take_of_length_le outside
  -- there is a place behind the point all the same, and it is a zero
  refine ⟨⟨digits ++ List.replicate (n - digits.length) '0', ['0'], none⟩, ?_, ?_, ?_, ?_⟩
  · simp [positional, pos.ne', Spelling.text, Spelling.powerText, rest, whole]
  · refine ⟨by simp [nonempty], isDigit_append_zeros all _, ?_, by simp, by simp, .inl (by simp)⟩
    rcases lead with ⟨zero, one⟩ | lead
    · exact .inl (by simp [zero, one])
    · exact .inr (by rwa [List.head?_append_of_ne_nil _ nonempty])
  · have value : Numeral.valueOf (digits ++ List.replicate (n - digits.length) '0' ++ ['0']) =
        10 ^ (n - digits.length + 1) * Numeral.valueOf digits := by
      rw [List.append_assoc, ← List.replicate_succ', Numeral.valueOf_append_zeros]
    have power : (10 : ℚ) ^ ((n : ℤ) - digits.length) =
        10 ^ (n - digits.length + 1) * 10 ^ (0 - (1 : ℤ)) := by
      rw [← zpow_natCast, ← zpow_add₀ (by norm_num)]
      congr 1
      rw [Nat.cast_add, Nat.cast_sub outside]
      ring
    simp only [Spelling.value, Spelling.digits, Spelling.exponent, Spelling.powerValue, value]
    rw [List.length_singleton, Nat.cast_one, power]
    push_cast
    ring
  · simp only [Spelling.digits, List.length_append, List.length_replicate, List.length_singleton]
    omega

include nonempty all in
/-- A decimal written positionally. -/
theorem positional_spelling (lead : digits = ['0'] ∨ digits.head? ≠ some '0') (point : ℤ)
    (zero : digits = ['0'] → point = 1) :
    Spells (positional digits point) (Numeral.valueOf digits * 10 ^ (point - digits.length))
      (digits.length + 1 + point.natAbs) := by
  rcases le_or_gt point 0 with low | high
  · obtain ⟨n, rfl⟩ : ∃ n : ℕ, point = -n := ⟨(-point).toNat, by omega⟩
    rw [Int.natAbs_neg, Int.natAbs_natCast]
    exact positional_before nonempty all n
  · obtain ⟨n, rfl⟩ : ∃ n : ℕ, point = n := ⟨point.toNat, by omega⟩
    have pos : 0 < n := by omega
    rcases Nat.lt_or_ge n digits.length with inside | outside
    · have lead : digits.head? ≠ some '0' := lead.resolve_left fun single => by
        rw [single, List.length_singleton] at inside
        omega
      exact (positional_among nonempty all pos inside lead).mono (by omega)
    · refine (positional_behind nonempty all pos outside ?_).mono (by omega)
      exact lead.imp_left fun single => ⟨single, by have := zero single; omega⟩

/-- The sign and the size of an exponent. -/
theorem power_of_natAbs (exponent : ℤ) :
    (if decide (exponent < 0) = true then -(exponent.natAbs : ℤ) else exponent.natAbs) =
      exponent := by
  by_cases neg : exponent < 0
  · simp only [neg, decide_true, if_true]
    omega
  · simp only [neg, decide_false, Bool.false_eq_true, if_false]
    omega

include nonempty all in
/-- A decimal written with an exponent. -/
theorem scientific_spelling (L : Layout)
    (lead : digits = ['0'] ∨ digits.head? ≠ some '0') (exponent : ℤ) :
    Spells (L.scientific digits exponent)
      (Numeral.valueOf digits * 10 ^ (exponent + 1 - digits.length)) digits.length := by
  have size : ∀ zeros : ℕ, Numeral.valueOf
      (List.replicate zeros '0' ++ Decimal.natural exponent.natAbs) = exponent.natAbs :=
    fun zeros => by rw [Numeral.valueOf_zeros_append, Decimal.valueOf_natural]
  have length : 1 ≤ digits.length := List.length_pos_iff.mpr nonempty
  refine ⟨⟨digits.take 1, digits.drop 1, some (decide (exponent < 0),
    List.replicate (L.exponentWidth - (Decimal.natural exponent.natAbs).length) '0' ++
      Decimal.natural exponent.natAbs)⟩, ?_, ?_, ?_, ?_⟩
  · by_cases neg : exponent < 0 <;> simp [scientific, Spelling.text, Spelling.powerText, neg]
  · refine ⟨by simp [nonempty], fun c hc => all c (List.mem_of_mem_take hc), ?_,
      fun c hc => all c (List.mem_of_mem_drop hc), ?_, .inr rfl⟩
    · rcases lead with single | lead
      · exact .inl (by simp [single])
      · exact .inr (by rwa [List.head?_take, if_neg one_ne_zero])
    · rintro negative power ⟨⟩
      exact ⟨by
        simp [Decimal.natural_ne_nil],
          isDigit_zeros_append (fun _ hc => Decimal.isDigit_of_mem_natural hc) _⟩
  · simp only [Spelling.value, Spelling.digits, Spelling.exponent, Spelling.powerValue,
      List.take_append_drop, size, power_of_natAbs]
    congr 2
    rw [List.length_drop, Nat.cast_sub length]
    push_cast
    ring
  · rw [Spelling.digits, List.take_append_drop]

end

theorem decimal_eq (d : Decimal) : document.decimal d =
    if -4 ≤ d.exponent + (Decimal.natural d.digits).length - 1 ∧
      d.exponent + (Decimal.natural d.digits).length - 1 < 16
    then positional (trimmed (Decimal.natural d.digits))
      (d.exponent + (Decimal.natural d.digits).length - 1 + 1)
    else document.scientific (trimmed (Decimal.natural d.digits))
      (d.exponent + (Decimal.natural d.digits).length - 1) :=
  rfl

/-- **A written decimal is a proper spelling of its value**, with few digits if the decimal has
few. -/
theorem decimal_spelling {d : Decimal} (some : 0 < d.digits ∨ d = ⟨0, 0⟩)
    (few : d.digits ≤ 10 ^ 17) :
    Spells (document.decimal d) d.value 40 := by
  have written : Decimal.natural d.digits ≠ [] := Decimal.natural_ne_nil _
  have nonempty := trimmed_ne_nil written
  have all : ∀ c ∈ trimmed (Decimal.natural d.digits), c.isDigit = true := fun c hc =>
    Decimal.isDigit_of_mem_natural (mem_of_mem_trimmed hc)
  have short : (Decimal.natural d.digits).length ≤ 18 :=
    (Nat.length_toDigits_le_iff (by decide) (by decide)).mpr (few.trans_lt (by decide))
  have shorter := length_trimmed_le (Decimal.natural d.digits)
  have lead : 0 < d.digits → (trimmed (Decimal.natural d.digits)).head? ≠ Option.some '0' :=
    fun pos => by
    rw [trimmed_head written]
    exact Decimal.natural_head pos
  have lead' : trimmed (Decimal.natural d.digits) = ['0'] ∨
      (trimmed (Decimal.natural d.digits)).head? ≠ Option.some '0' := by
    rcases some with pos | zero
    · exact .inr (lead pos)
    · exact .inl (by rw [zero]; rfl)
  rw [value_trimmed, decimal_eq, sub_add_cancel]
  split
  · case isTrue range =>
    have zero : trimmed (Decimal.natural d.digits) = ['0'] →
        d.exponent + (Decimal.natural d.digits).length = 1 := by
      intro single
      rcases some with pos | zero
      · exact absurd (by rw [single]; rfl) (lead pos)
      · rw [zero]
        rfl
    exact (positional_spelling nonempty all lead' _ zero).mono (by omega)
  · have spelled := scientific_spelling nonempty all document lead'
      (d.exponent + (Decimal.natural d.digits).length - 1)
    rw [sub_add_cancel] at spelled
    exact spelled.mono (by omega)

/-- **The text of a double spells the double**, behind the sign. -/
theorem float_spelling {x : Float} {b : Binary64} (parts : Binary64.ofFloat? x = some b) :
    ∃ s : Spelling, document.decimal b.shortest = s.text ∧ s.Proper ∧
      Binary64.ofDecimal b.negative (Numeral.valueOf s.digits) s.exponent = x := by
  obtain ⟨regular, top, -⟩ := Binary64.bits_of_parts x.toBits.toNat_lt parts
  have few : (0 < b.shortest.digits ∨ b.shortest = ⟨0, 0⟩) ∧ b.shortest.digits ≤ 10 ^ 17 := by
    rcases Nat.eq_zero_or_pos b.mantissa with zero | some
    · have shortest : b.shortest = ⟨0, 0⟩ := by rw [Binary64.shortest, if_pos zero]
      exact ⟨.inr shortest, by simp [shortest]⟩
    · obtain ⟨-, pos, few⟩ := Binary64.shortest_spec regular top some
      exact ⟨.inl pos, few⟩
  obtain ⟨s, text, proper, value, length⟩ := decimal_spelling few.1 few.2
  refine ⟨s, text, proper, Binary64.ofDecimal_shortest parts ?_ value⟩
  have small : Numeral.valueOf s.digits < 2 ^ 133 :=
    (Numeral.valueOf_lt proper.digits).trans_le
      ((Nat.pow_le_pow_right (by decide) length).trans (by decide))
  rcases Nat.eq_zero_or_pos (Numeral.valueOf s.digits) with zero | pos
  · rw [zero]
    decide
  · exact ((Nat.log2_lt pos.ne').mpr small).trans (by decide)

/-! ### The characters of numbers -/

/-- A character that numbers are written with. -/
def Mark (c : Char) : Prop := c.isAlphanum = true ∨ c = '-' ∨ c = '+' ∨ c = '.'

/-- Where these characters stand in ASCII, and where they do not. -/
theorem Mark.code {c : Char} (h : Mark c) :
    0x2B ≤ c.toNat ∧ c.toNat ≤ 0x7A ∧ c.toNat ≠ 0x2C ∧ c.toNat ≠ 0x5C ∧ c.toNat ≠ 0x5D := by
  rcases h with word | rfl | rfl | rfl
  · simp only [Char.isAlphanum, Char.isAlpha, Char.isUpper, Char.isLower, Char.isDigit,
      Bool.or_eq_true, Bool.and_eq_true, decide_eq_true_eq] at word
    have upper : 65 ≤ c.toNat ∧ c.toNat ≤ 90 ∨ 97 ≤ c.toNat ∧ c.toNat ≤ 122 ∨ 48 ≤ c.toNat ∧
        c.toNat ≤ 57 := by
      rcases word with (h | h) | h
      · exact .inl h
      · exact .inr (.inl h)
      · exact .inr (.inr h)
    omega
  · decide
  · decide
  · decide

theorem mark_of_isDigit {c : Char} (h : c.isDigit = true) : Mark c := by
  left
  rw [Char.isAlphanum, h, Bool.or_true]

theorem mark_natural (n : ℕ) : ∀ c ∈ Decimal.natural n, Mark c := fun _ hc =>
  mark_of_isDigit (Decimal.isDigit_of_mem_natural hc)

theorem mark_integer (n : ℤ) : ∀ c ∈ Decimal.integer n, Mark c := by
  intro c hc
  unfold Decimal.integer at hc
  split at hc
  · rcases List.mem_cons.mp hc with rfl | hc
    · exact .inr (.inl rfl)
    · exact mark_natural _ c hc
  · exact mark_natural _ c hc

theorem mark_spelling {s : Spelling} (proper : s.Proper) : ∀ c ∈ s.text, Mark c := by
  intro c hc
  rcases List.mem_append.mp hc with hc | hc
  · exact mark_of_isDigit (proper.whole c hc)
  rcases List.mem_append.mp hc with hc | hc
  · split at hc
    · cases hc
    · rcases List.mem_cons.mp hc with rfl | hc
      · exact .inr (.inr (.inr rfl))
      · exact mark_of_isDigit (proper.places c hc)
  · cases power : s.power with
    | none =>
        rw [power] at hc
        cases hc
    | some p =>
        obtain ⟨negative, digits⟩ := p
        rw [power] at hc
        simp only [Spelling.powerText, List.mem_cons] at hc
        rcases hc with rfl | rfl | hc
        · exact .inl rfl
        · split
          · exact .inr (.inl rfl)
          · exact .inr (.inr (.inl rfl))
        · exact mark_of_isDigit ((proper.power negative digits power).2 c hc)

section

variable {L : Layout} (same : L.decimal = document.decimal) (x : Float)

include same

/-- A double is written with these characters, if its words are. -/
theorem mark_float (words : ∀ c ∈ L.notANumber.toList ++ L.infinity.toList, Mark c) :
    ∀ c ∈ L.float x, Mark c := by
  rw [Layout.float]
  intro c hc
  cases parts : Binary64.ofFloat? x with
  | some b =>
      obtain ⟨s, text, proper, -⟩ := float_spelling parts
      simp only [parts, same, text] at hc
      rcases List.mem_append.mp hc with hc | hc
      · split at hc
        · exact .inr (.inl (List.mem_singleton.mp hc))
        · cases hc
      · exact mark_spelling proper c hc
  | none =>
      simp only [parts] at hc
      split at hc
      · exact words c (List.mem_append_left _ hc)
      · split at hc
        · rcases List.mem_cons.mp hc with rfl | hc
          · exact .inr (.inl rfl)
          · exact words c (List.mem_append_right _ hc)
        · exact words c (List.mem_append_right _ hc)

theorem float_ne_nil (words : L.notANumber.toList ≠ [] ∧ L.infinity.toList ≠ []) :
    L.float x ≠ [] := by
  rw [Layout.float]
  cases parts : Binary64.ofFloat? x with
  | some b =>
      obtain ⟨s, text, proper, -⟩ := float_spelling parts
      simp [same, text, Spelling.text, proper.nonempty]
  | none =>
      simp only
      split
      · exact words.1
      · split
        · nofun
        · exact words.2

end

theorem document_marks (x : Float) : ∀ c ∈ document.float x, Mark c :=
  mark_float rfl x (by simp [document, Mark])

theorem document_ne_nil (x : Float) : document.float x ≠ [] := float_ne_nil rfl x (by decide)

end Layout

end Annealing
