import Annealing.Document.Json.Reader
import Annealing.Document.Json.Writer
import Annealing.Proofs.Text.Whole

/-!
# Document — reading quoted texts

A text stands between quotes with escapes for whatever is not printable ASCII.  A character beyond
the first 65536 is written as two halves of a surrogate pair, and so are two halves that stand next
to each other: the reader joins both alike.  So what is read is the text with its halves joined
(`Text.mend`), and the text itself if it is one of characters.

* `Json.text_quoted`: the reading of a quoted text.
* `Text.mend_of_whole`: there is nothing to join in a text of characters.
-/

namespace Annealing

namespace Text

/-- The text with every first half of a surrogate pair joined with the second half behind it. -/
def mend : Text → Text
  | .half a :: .half b :: rest =>
      if a.val < 0x400 ∧ 0x400 ≤ b.val then
        .char (Char.ofNat (0x10000 + a.val * 0x400 + (b.val - 0x400))) :: mend rest
      else .half a :: mend (.half b :: rest)
  | s :: rest => s :: mend rest
  | [] => []

/-- **There is nothing to join in a text of characters.** -/
theorem mend_of_whole {t : Text} (whole : t.Whole) : t.mend = t := by
  induction t using mend.induct with
  | case1 a b rest pair ih => cases whole (.half a) List.mem_cons_self
  | case2 a b rest notPair ih => cases whole (.half a) List.mem_cons_self
  | case3 s rest single ih =>
      rw [mend, ih fun other h => whole other (List.mem_cons_of_mem s h)]
      exact single
  | case4 => rfl

/-- A text that is low when its halves are joined had no halves to join. -/
theorem mend_of_low {t : Text} (low : ∀ c, .char c ∈ t.mend → c.toNat < 0x10000) : t.mend = t := by
  induction t using mend.induct with
  | case1 a b rest pair ih =>
      rw [mend, if_pos pair] at low
      have below : b.val < 0x800 := b.isLt
      have valid : (0x10000 + a.val * 0x400 + (b.val - 0x400)).isValidChar :=
        .inr ⟨by omega, by omega⟩
      have joined := low _ List.mem_cons_self
      rw [Char.ofNat, dif_pos valid] at joined
      have code : (Char.ofNatAux _ valid).toNat = 0x10000 + a.val * 0x400 + (b.val - 0x400) := rfl
      omega
  | case2 a b rest notPair ih =>
      rw [mend, if_neg notPair] at low ⊢
      rw [ih fun c hc => low c (List.mem_cons_of_mem _ hc)]
  | case3 s rest single ih =>
      rw [mend] at low ⊢
      · rw [ih fun c hc => low c (List.mem_cons_of_mem _ hc)]
      · exact single
      · exact single
  | case4 => rfl

end Text

namespace Json

/-! ### Code units -/

theorem hexValue?_digitChar {d : Nat} (small : d < 16) : hexValue? d.digitChar = some d :=
  (by decide : ∀ d : Fin 16, hexValue? d.val.digitChar = some d.val) ⟨d, small⟩

/-- The last digit of a number stands behind those of its sixteenth. -/
theorem hexDigits_succ (width n : Nat) :
    Text.hexDigits (width + 2) n = Text.hexDigits (width + 1) (n / 16) ++ [(n % 16).digitChar] := by
  unfold Text.hexDigits
  rcases Nat.lt_or_ge n 16 with one | more
  · rw [Nat.toDigits_of_lt_base one, Nat.div_eq_of_lt one, Nat.mod_eq_of_lt one]
    exact congrArg (· ++ [n.digitChar]) (List.replicate_succ' (n := width) (a := '0'))
  · rw [Nat.toDigits_of_base_le (by decide) more]
    simp

/-- A code unit has four digits. -/
theorem hexDigits_four {n : Nat} (small : n < 0x10000) : Text.hexDigits 4 n =
    [(n / 16 / 16 / 16).digitChar, (n / 16 / 16 % 16).digitChar, (n / 16 % 16).digitChar,
      (n % 16).digitChar] := by
  have first : n / 16 / 16 / 16 < 16 := by omega
  rw [hexDigits_succ, hexDigits_succ, hexDigits_succ, Text.hexDigits, Nat.toDigits_of_lt_base first]
  rfl

/-- The reading of a code unit. -/
theorem unit?_hexDigits {n : Nat} (small : n < 0x10000) {cs : List Char} (more : cs ≠ []) :
    unit? (Text.hexDigits 4 n ++ cs) = some (n, cs) := by
  obtain ⟨c, rest, rfl⟩ := List.exists_cons_of_ne_nil more
  rw [hexDigits_four small]
  simp only [List.cons_append, List.nil_append, unit?,
    hexValue?_digitChar (show n / 16 / 16 / 16 < 16 by omega),
    hexValue?_digitChar (Nat.mod_lt _ (by decide : 0 < 16))]
  have whole : 256 * (16 * (n / 16 / 16 / 16) + n / 16 / 16 % 16) + (16 * (n / 16 % 16) + n % 16) =
      n := by omega
  simp [whole]

/-- An escaped code unit is the second half of a pair, or is none. -/
theorem lowHalf?_unitEscape {unit : Nat} (small : unit < 0x10000)
    {cs : List Char} (more : cs ≠ []) :
    lowHalf? (unitEscape unit ++ cs) =
      if 0xDC00 ≤ unit ∧ unit ≤ 0xDFFF then some (unit - 0xDC00, cs) else none := by
  simp only [unitEscape, List.cons_append, lowHalf?, unit?_hexDigits small more]
  rfl

/-- A first half is joined with the second half behind it. -/
theorem joined_pair {high low : Nat} (hh : high < 0x400) (hl : low < 0x400)
    {cs : List Char} (more : cs ≠ []) :
    joined (0xD800 + high) (unitEscape (0xDC00 + low) ++ cs) =
      (.char (Char.ofNat (0x10000 + high * 0x400 + low)), cs) := by
  have first : 0xD800 ≤ 0xD800 + high ∧ 0xD800 + high ≤ 0xDBFF := by omega
  have second : 0xDC00 ≤ 0xDC00 + low ∧ 0xDC00 + low ≤ 0xDFFF := by omega
  rw [joined, if_pos first, lowHalf?_unitEscape (by omega) more, if_pos second]
  simp only [Nat.add_sub_cancel_left]

/-- Any other code unit stands alone. -/
theorem joined_alone {unit : Nat} {s : Symbol} (code : Symbol.ofCode? unit = some s)
    {cs : List Char} (alone : ¬ (0xD800 ≤ unit ∧ unit ≤ 0xDBFF) ∨ lowHalf? cs = none) :
    joined unit cs = (s, cs) := by
  unfold joined
  rw [code, Option.getD_some]
  rcases alone with other | none
  · rw [if_neg other]
  · rw [none, ite_self]

/-! ### Symbols -/

section

variable (opened fuel : Nat) (before : Text) {cs : List Char} (more : cs ≠ [])

include more

/-- The reading of an escaped code unit. -/
theorem textRest_unitEscape {unit : Nat} (small : unit < 0x10000) :
    textRest opened (fuel + 1) before (unitEscape unit ++ cs) =
      textRest opened fuel ((joined unit cs).1 :: before) (joined unit cs).2 := by
  simp only [unitEscape, List.cons_append, textRest, unit?_hexDigits small more]

/-- The reading of a half that stands alone. -/
theorem textRest_half (a : Fin 0x800) (alone : 0x400 ≤ a.val ∨ lowHalf? cs = none) :
    textRest opened (fuel + 1) before (escapeSymbol (.half a) ++ cs) =
      textRest opened fuel (.half a :: before) cs := by
  have code : Symbol.ofCode? (Symbol.firstHalf + a) = some (.half a) := by
    have bounds : Symbol.firstHalf ≤ Symbol.firstHalf + a.val ∧
        Symbol.firstHalf + a.val < Symbol.firstHalf + 0x800 := by
      omega
    rw [Symbol.ofCode?, dif_pos bounds]
    simp
  have unit : Symbol.firstHalf + a.val = 0xD800 + a := rfl
  have joins := joined_alone code (alone.imp_left fun second => by omega)
  rw [show escapeSymbol (.half a) = unitEscape (Symbol.firstHalf + a) from rfl,
    textRest_unitEscape opened fuel before more (by omega), joins]

/-- The reading of two halves that are a pair. -/
theorem textRest_pair {high low : Nat} (hh : high < 0x400) (hl : low < 0x400) :
    textRest opened (fuel + 1) before
      (unitEscape (0xD800 + high) ++ (unitEscape (0xDC00 + low) ++ cs)) =
      textRest opened fuel (.char (Char.ofNat (0x10000 + high * 0x400 + low)) :: before) cs := by
  rw [textRest_unitEscape opened fuel before (by simp [unitEscape]) (by omega),
    joined_pair hh hl more]

end

/-- How a character is written inside quotes. -/
inductive Escaped (c : Char) : List Char → Prop where
  | letter {e : Char} (stands : escaped? e = some c) (other : e ≠ 'u') (ascii : e.toNat < 0x80) :
      Escaped c ['\\', e]
  | plain (printable : 0x20 ≤ c.toNat ∧ c.toNat ≤ 0x7E) (quote : c ≠ '"') (backslash : c ≠ '\\') :
      Escaped c [c]
  | unit (small : c.toNat < 0x10000) : Escaped c (unitEscape c.toNat)
  | pair {high low : Nat} (hh : high < 0x400) (hl : low < 0x400)
      (joined : Char.ofNat (0x10000 + high * 0x400 + low) = c) :
      Escaped c (unitEscape (0xD800 + high) ++ unitEscape (0xDC00 + low))

theorem Escaped.length_pos {c : Char} {written : List Char} (h : Escaped c written) :
    0 < written.length := by
  cases h <;> exact Nat.succ_pos _

/-- A character that has a letter of its own is escaped by it. -/
theorem Escaped.ite_letter {c d e : Char} {written : List Char} (stands : escaped? e = some d)
    (other : e ≠ 'u') (ascii : e.toNat < 0x80) (otherwise : c ≠ d → Escaped c written) :
    Escaped c (if c = d then ['\\', e] else written) := by
  split
  · case isTrue same => exact .letter (same ▸ stands) other ascii
  · case isFalse differs => exact otherwise differs

theorem escape_escaped (c : Char) : Escaped c (escape c) := by
  have valid : c.toNat < 0xD800 ∨ 0xDFFF < c.toNat ∧ c.toNat < 0x110000 := c.valid
  unfold escape
  refine .ite_letter rfl (by decide) (by decide) fun quote => ?_
  refine .ite_letter rfl (by decide) (by decide) fun backslash => ?_
  refine .ite_letter rfl (by decide) (by decide) fun _ => ?_
  refine .ite_letter rfl (by decide) (by decide) fun _ => ?_
  refine .ite_letter rfl (by decide) (by decide) fun _ => ?_
  refine .ite_letter rfl (by decide) (by decide) fun _ => ?_
  refine .ite_letter rfl (by decide) (by decide) fun _ => ?_
  split
  · case isTrue printable => exact .plain printable quote backslash
  split
  · case isTrue small => exact .unit small
  · case isFalse large =>
      have whole : 0x10000 + (c.toNat - 0x10000) / 0x400 * 0x400 + (c.toNat - 0x10000) %
          0x400 = c.toNat := by omega
      exact .pair (by omega) (by omega) (by rw [whole, Char.ofNat_toNat])

section

variable {c : Char} {written : List Char} (escaped : Escaped c written)
  {cs : List Char} (more : cs ≠ [])

include escaped more

/-- The reading of a character. -/
theorem textRest_escaped (opened fuel : Nat) (before : Text) :
    textRest opened (fuel + 1) before (written ++ cs) =
      textRest opened fuel (.char c :: before) cs := by
  cases escaped with
  | letter stands other =>
      obtain ⟨d, rest, rfl⟩ := List.exists_cons_of_ne_nil more
      simp only [List.cons_append, List.nil_append]
      rw [textRest]
      · rw [stands]
      · exact other
  | plain printable quote backslash =>
      simp only [List.cons_append, List.nil_append]
      rw [textRest]
      · rw [if_neg (by omega)]
      · exact quote
      · exact fun same _ => backslash same
      · exact fun _ same _ => backslash same
      · exact fun _ _ same _ => backslash same
  | unit small =>
      have valid : c.toNat < 0xD800 ∨ 0xDFFF < c.toNat ∧ c.toNat < 0x110000 := c.valid
      have code : Symbol.ofCode? c.toNat = some (.char c) := by
        rw [Symbol.ofCode?, dif_neg (by unfold Symbol.firstHalf; omega), if_pos (by omega),
          Char.ofNat_toNat]
      rw [textRest_unitEscape opened fuel before more small, joined_alone code (.inl (by omega))]
  | pair hh hl joined => rw [List.append_assoc, textRest_pair opened fuel before more hh hl, joined]

/-- What a character is written as does not start with a second half. -/
theorem lowHalf?_escaped : lowHalf? (written ++ cs) = none := by
  cases escaped with
  | letter stands other =>
      simp only [List.cons_append, List.nil_append, lowHalf?]
      split
      · rename_i more pattern
        cases pattern
        exact absurd rfl other
      · rfl
  | plain printable quote backslash =>
      simp only [List.cons_append, List.nil_append, lowHalf?]
      split
      · rename_i more pattern
        cases pattern
        exact absurd rfl backslash
      · rfl
  | unit small =>
      have valid : c.toNat < 0xD800 ∨ 0xDFFF < c.toNat ∧ c.toNat < 0x110000 := c.valid
      rw [lowHalf?_unitEscape small more, if_neg (by omega)]
  | pair hh hl joined =>
      rw [List.append_assoc, lowHalf?_unitEscape (by omega) (by simp [unitEscape]),
        if_neg (by omega)]

end

/-! ### Texts -/

theorem behind_ne_nil (t : Text) (rest : List Char) :
    t.flatMap escapeSymbol ++ '"' :: rest ≠ [] := by simp

/-- Behind a half that no other half follows stands no second half. -/
theorem lowHalf?_behind {a : Fin 0x800} {more : Text} {rest : List Char}
    (single : ∀ a' b more', Symbol.half a = .half a' → more = .half b :: more' → False) :
    lowHalf? (more.flatMap escapeSymbol ++ '"' :: rest) = none := by
  cases more with
  | nil => rfl
  | cons s more =>
      cases s with
      | char c =>
          rw [List.flatMap_cons, List.append_assoc]
          exact lowHalf?_escaped (escape_escaped c) (behind_ne_nil more rest)
      | half b => exact (single a b more rfl rfl).elim

/-- The reading of the symbols of a text up to the closing quote. -/
theorem textRest_symbols (opened : Nat) (rest : List Char) (t : Text) :
    ∀ (fuel : Nat) (before : Text), t.length < fuel →
      textRest opened fuel before (t.flatMap escapeSymbol ++ '"' :: rest) =
        .ok (before.reverse ++ t.mend, rest) := by
  -- the cases are those of `Text.mend`, since the reader takes the same two symbols at once
  induction t using Text.mend.induct with
  | case1 a b more pair ih =>
      rintro (_ | fuel) before enough
      · cases enough
      have first : escapeSymbol (.half a) = unitEscape (0xD800 + a) := rfl
      have second : escapeSymbol (.half b) = unitEscape (0xDC00 + (b.val - 0x400)) := by
        rw [escapeSymbol, Symbol.code, show Symbol.firstHalf + b.val = 0xDC00 + (b.val - 0x400) by
          unfold Symbol.firstHalf; omega]
        nofun
      simp only [List.flatMap_cons, List.append_assoc, first, second]
      rw [textRest_pair opened fuel before (behind_ne_nil more rest) pair.1 (by omega),
        ih fuel _ (by
          simp only [List.length_cons] at enough
          omega), Text.mend, if_pos pair, List.reverse_cons, List.append_assoc]
      rfl
  | case2 a b more notPair ih =>
      rintro (_ | fuel) before enough
      · cases enough
      have alone : 0x400 ≤ a.val ∨
          lowHalf? ((Symbol.half b :: more).flatMap escapeSymbol ++ '"' :: rest) = none := by
        rcases Nat.lt_or_ge a.val 0x400 with low | high
        · right
          have second : escapeSymbol (.half b) = unitEscape (0xD800 + b) := rfl
          rw [List.flatMap_cons, List.append_assoc, second, lowHalf?_unitEscape (by omega)
            (behind_ne_nil more rest), if_neg (by omega)]
        · exact .inl high
      rw [List.flatMap_cons, List.append_assoc,
        textRest_half opened fuel before (behind_ne_nil _ rest) a alone,
        ih fuel _ (Nat.lt_of_succ_lt_succ enough), Text.mend, if_neg notPair, List.reverse_cons,
        List.append_assoc]
      rfl
  | case3 s more single ih =>
      rintro (_ | fuel) before enough
      · cases enough
      have step : textRest opened (fuel + 1) before
          (escapeSymbol s ++ (more.flatMap escapeSymbol ++ '"' :: rest)) =
          textRest opened fuel (s :: before) (more.flatMap escapeSymbol ++ '"' :: rest) := by
        cases s with
        | char c =>
            exact textRest_escaped (escape_escaped c) (behind_ne_nil more rest) opened fuel before
        | half a =>
            exact textRest_half opened fuel before (behind_ne_nil more rest) a
              (.inr (lowHalf?_behind single))
      rw [List.flatMap_cons, List.append_assoc, step, ih fuel _ (Nat.lt_of_succ_lt_succ enough),
        Text.mend, List.reverse_cons, List.append_assoc]
      · rfl
      · exact single
  | case4 =>
      rintro (_ | fuel) before enough
      · cases enough
      · simp [textRest, Text.mend]

/-- Every symbol takes a character at least. -/
theorem length_le_symbols (t : Text) : t.length ≤ (t.flatMap escapeSymbol).length := by
  induction t with
  | nil => exact Nat.le_refl 0
  | cons s rest ih =>
      have some : 0 < (escapeSymbol s).length := by
        cases s with
        | char c => exact (escape_escaped c).length_pos
        | half a => exact Nat.succ_pos _
      rw [List.flatMap_cons, List.length_append, List.length_cons]
      omega

/-- **The reading of a quoted text**: the text with its halves joined. -/
theorem text_quoted (t : Text) (rest : List Char) :
    text (t.flatMap escapeSymbol ++ '"' :: rest) = .ok (t.mend, rest) := by
  have enough := length_le_symbols t
  refine textRest_symbols _ rest t _ [] ?_
  rw [List.length_append]
  omega

end Json

end Annealing
