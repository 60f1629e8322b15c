import Annealing.Proofs.Document.Json.Quote
import Annealing.Proofs.Document.Json.Refusal
import Annealing.Proofs.Number.Layout
import Annealing.Proofs.Number.Mixed
import Annealing.Proofs.Text.Plain

/-!
# Document — what a written JSON text looks like

A text that is not cut off is put together from the texts of its parts, and what it is put together
from is said once for each constructor of values (`Json.list_written`, `Json.dict_written` and those
of further items and entries).  A key is written as a text between quotes, whatever it is
(`Json.key_written`).

* `Json.Formed`: a text of plain characters with no blank at either end.
* `Json.draft_formed`: a text that is not cut off is formed.
-/

namespace Annealing.Json

/-! ### Drafts that are not cut off -/

namespace Draft

theorem andThen_fault {a b : Draft} :
    (a.andThen b).fault = none ↔ a.fault = none ∧ b.fault = none := by
  unfold andThen
  cases h : a.fault with
  | none => simp
  | some f => simp [h]

theorem andThen_written {a b : Draft} (h : a.fault = none) :
    (a.andThen b).written = a.written ++ b.written := by
  unfold andThen
  rw [h]

end Draft

theorem behind_fault {lead : List Char} {v : Value} {item : Draft} :
    (behind lead v item).fault = none ↔ item.fault = none := by
  unfold behind
  split
  · exact Iff.rfl
  · exact Draft.andThen_fault.trans (and_iff_right rfl)

theorem behind_written {lead : List Char} {v : Value} {item : Draft} (h : item.fault = none) :
    (behind lead v item).written = lead ++ item.written := by
  unfold behind
  split
  · rename_i cut
    cases h.symm.trans cut
  · exact Draft.andThen_written rfl

/-- An integer that is not cut off has few digits. -/
theorem integerDraft_fault {n : Int} (h : (integerDraft n).fault = none) :
    (Decimal.natural n.natAbs).length ≤ Numeral.digitLimit ∧
    (integerDraft n).written = Decimal.integer n := by
  by_cases short : Decimal.IsShort n
  · exact ⟨short, by rw [integerDraft_of_short short]; rfl⟩
  · rw [integerDraft_of_not_short short] at h
    cases h

section

variable {untied : (depth number : Nat) → Draft} {depth : Nat} {k v : Value}

/-- The parts of a written list. -/
theorem list_written {rest : List Value}
    (h : (draft untied depth (.list (v :: rest))).fault = none) :
    depth ≠ nestingLimit ∧ (draft untied (depth + 1) v).fault = none ∧
      (moreItems untied (depth + 1) rest).fault = none ∧
      (draft untied depth (.list (v :: rest))).written = '[' :: newLine (depth + 1) ++
        ((draft untied (depth + 1) v).written ++
          ((moreItems untied (depth + 1) rest).written ++ (newLine depth ++ [']']))) := by
  simp only [draft] at h ⊢
  split at h
  · cases h
  · rename_i room
    rw [if_neg room]
    obtain ⟨first, h⟩ := Draft.andThen_fault.mp h
    obtain ⟨more, -⟩ := Draft.andThen_fault.mp h
    have item := behind_fault.mp first
    refine ⟨room, item, more, ?_⟩
    rw [Draft.andThen_written first, Draft.andThen_written more, behind_written item,
      List.append_assoc]
    rfl

/-- The parts of further items. -/
theorem moreItems_written {rest : List Value}
    (h : (moreItems untied depth (v :: rest)).fault = none) :
    (draft untied depth v).fault = none ∧ (moreItems untied depth rest).fault = none ∧
      (moreItems untied depth (v :: rest)).written =
        ',' :: newLine depth ++
          ((draft untied depth v).written ++ (moreItems untied depth rest).written) := by
  simp only [moreItems] at h ⊢
  obtain ⟨first, more⟩ := Draft.andThen_fault.mp h
  have item := behind_fault.mp first
  refine ⟨item, more, ?_⟩
  rw [Draft.andThen_written first, behind_written item, List.append_assoc]

/-- The parts of a written dictionary. -/
theorem dict_written {rest : List (Value × Value)}
    (h : (draft untied depth (.dict ((k, v) :: rest))).fault = none) :
    depth ≠ nestingLimit ∧ (keyDraft k).fault = none ∧ (draft untied (depth + 1) v).fault = none ∧
      (moreEntries untied (depth + 1) rest).fault = none ∧
      (draft untied depth (.dict ((k, v) :: rest))).written = '{' :: newLine (depth + 1) ++
        ((keyDraft k).written ++ ([':', ' '] ++ ((draft untied (depth + 1) v).written ++
          ((moreEntries untied (depth + 1) rest).written ++ (newLine depth ++ ['}']))))) := by
  simp only [draft] at h ⊢
  split at h
  · cases h
  · rename_i room
    rw [if_neg room]
    obtain ⟨-, h⟩ := Draft.andThen_fault.mp h
    obtain ⟨key, h⟩ := Draft.andThen_fault.mp h
    obtain ⟨-, h⟩ := Draft.andThen_fault.mp h
    obtain ⟨item, h⟩ := Draft.andThen_fault.mp h
    obtain ⟨more, -⟩ := Draft.andThen_fault.mp h
    refine ⟨room, key, item, more, ?_⟩
    rw [Draft.andThen_written rfl, Draft.andThen_written key, Draft.andThen_written rfl,
      Draft.andThen_written item, Draft.andThen_written more]
    rfl

/-- The parts of further entries. -/
theorem moreEntries_written {rest : List (Value × Value)}
    (h : (moreEntries untied depth ((k, v) :: rest)).fault = none) :
    (keyDraft k).fault = none ∧ (draft untied depth v).fault = none ∧
    (moreEntries untied depth rest).fault = none ∧
      (moreEntries untied depth ((k, v) :: rest)).written = ',' :: newLine depth ++
        ((keyDraft k).written ++ ([':', ' '] ++
          ((draft untied depth v).written ++ (moreEntries untied depth rest).written))) := by
  simp only [moreEntries] at h ⊢
  split at h
  · cases h
  · rename_i key
    obtain ⟨-, h⟩ := Draft.andThen_fault.mp h
    obtain ⟨-, h⟩ := Draft.andThen_fault.mp h
    obtain ⟨-, h⟩ := Draft.andThen_fault.mp h
    obtain ⟨item, more⟩ := Draft.andThen_fault.mp h
    refine ⟨key, item, more, ?_⟩
    rw [Draft.andThen_written rfl, Draft.andThen_written key, Draft.andThen_written rfl,
      Draft.andThen_written item]
    rfl

end

/-! ### Characters that are written as they are -/

/-- A printable character that a text shows as it is, and that is no blank and no bracket. -/
def Bare (c : Char) : Prop := 0x21 ≤ c.toNat ∧ c.toNat ≤ 0x7E ∧ c ≠ '"' ∧ c ≠ '\\' ∧ c ≠ ']'

instance (c : Char) : Decidable (Bare c) := inferInstanceAs (Decidable (_ ∧ _))

theorem Bare.of_mark {c : Char} (h : Layout.Mark c) : Bare c := by
  obtain ⟨low, high, -, backslash, bracket⟩ := h.code
  refine ⟨by omega, by omega, ?_, ?_, ?_⟩
  · rintro rfl
    exact absurd low (by decide)
  · rintro rfl
    exact backslash rfl
  · rintro rfl
    exact bracket rfl

theorem Bare.escape {c : Char} (h : Bare c) : Json.escape c = [c] := by
  obtain ⟨low, high, quote, backslash, -⟩ := h
  have control : ∀ d : Char, d.toNat < 0x21 → c ≠ d := by
    rintro d small rfl
    omega
  rw [Json.escape, if_neg quote, if_neg backslash, if_neg (control '\n' (by decide)),
    if_neg (control '\r' (by decide)),
    if_neg (control '\t' (by decide)), if_neg (control '\x08' (by decide)),
    if_neg (control '\x0c' (by decide)), if_pos ⟨by omega, high⟩]

/-- Bare characters between quotes stand there as they are. -/
theorem quoted_bare {cs : List Char} (all : ∀ c ∈ cs, Bare c) :
    quoted (Text.ofChars cs) = '"' :: cs ++ ['"'] := by
  have same : (Text.ofChars cs).flatMap escapeSymbol = cs := by
    induction cs with
    | nil => rfl
    | cons c rest ih =>
        have rest := ih fun d hd => all d (List.mem_cons_of_mem c hd)
        exact (congrArg₂ (· ++ ·) (all c List.mem_cons_self).escape rest :)
  rw [quoted, same]

/-! ### Keys -/

/-- The text that a key is, as JSON has it. -/
def keyText : Value → Text
  | .text t => t.mend
  | .float x => Text.ofChars (Layout.document.float x)
  | .bool b => Text.ofChars (if b then "true" else "false").toList
  | .null => Text.ofChars "null".toList
  | .int n => Text.ofChars (Decimal.integer n)
  | _ => []

/-- **A key is written as a text between quotes.** -/
theorem key_written {k : Value} (h : (keyDraft k).fault = none) :
    ∃ t : Text, (keyDraft k).written = quoted t ∧ t.mend = keyText k := by
  have bare : ∀ cs : List Char, (∀ c ∈ cs, Bare c) → (keyDraft k).written = '"' :: cs ++ ['"'] →
      keyText k = Text.ofChars cs → ∃ t : Text, (keyDraft k).written = quoted t ∧
      t.mend = keyText k := by
    intro cs all written key
    exact ⟨Text.ofChars cs, written.trans (quoted_bare all).symm,
      (Text.mend_of_whole (Text.whole_ofChars cs)).trans key.symm⟩
  cases k with
  | text t => exact ⟨t, rfl, rfl⟩
  | float x => exact bare _ (fun c hc => .of_mark (Layout.document_marks x c hc)) rfl rfl
  | bool b => exact bare _ (by cases b <;> simp [Bare]) rfl rfl
  | null => exact bare _ (by simp [Bare]) rfl rfl
  | int n =>
      simp only [keyDraft] at h
      split at h
      · cases h
      · rename_i whole
        refine bare _ (fun c hc => .of_mark (Layout.mark_integer n c hc)) ?_ rfl
        simp only [keyDraft, whole, (integerDraft_fault whole).2, Draft.ofChars]
  | _ => cases h

/-! ### The form of a text -/

theorem plain_of_bare {cs : List Char} (h : ∀ c ∈ cs, Bare c) : Text.Plain cs := by
  intro c hc
  obtain ⟨low, high, -⟩ := h c hc
  refine ⟨by omega, ?_⟩
  rintro rfl
  revert low
  decide

theorem plain_unitEscape {unit : Nat} (small : unit < 0x10000) : Text.Plain (unitEscape unit) := by
  have digit : ∀ d : Fin 16, d.val.digitChar.toNat < 0x80 ∧ d.val.digitChar ≠ '\r' := by decide
  rw [unitEscape, hexDigits_four small]
  intro c hc
  simp only [List.mem_cons, List.not_mem_nil, or_false] at hc
  rcases hc with rfl | rfl | rfl | rfl | rfl | rfl
  · decide
  · decide
  · exact digit ⟨_, by omega⟩
  · exact digit ⟨_, Nat.mod_lt _ (by decide)⟩
  · exact digit ⟨_, Nat.mod_lt _ (by decide)⟩
  · exact digit ⟨_, Nat.mod_lt _ (by decide)⟩

theorem Escaped.plain_written {c : Char} {written : List Char} (h : Escaped c written) :
    Text.Plain written := by
  cases h with
  | @letter e stands _ ascii =>
      have other : e ≠ '\r' := by
        rintro rfl
        cases stands
      intro d hd
      rcases List.mem_cons.mp hd with rfl | hd
      · decide
      · rw [List.mem_singleton.mp hd]
        exact ⟨ascii, other⟩
  | plain printable _ _ =>
      intro d hd
      rw [List.mem_singleton.mp hd]
      refine ⟨by omega, ?_⟩
      rintro rfl
      revert printable
      decide
  | unit small => exact plain_unitEscape small
  | pair hh hl _ => exact (plain_unitEscape (by omega)).append (plain_unitEscape (by omega))

/-- What a value is written as: plain characters, with no blank at either end, and not the end of a
list in front. -/
structure Formed (cs : List Char) : Prop where
  plain : Text.Plain cs
  first : ∃ c rest, cs = c :: rest ∧ Text.isBlank c = false ∧ c ≠ ']'
  last : ∃ before c, cs = before ++ [c] ∧ Text.isBlank c = false

theorem Bare.not_blank {c : Char} (h : Bare c) : Text.isBlank c = false := by
  obtain ⟨low, high, -⟩ := h
  simp only [Text.isBlank, Text.blankRanges, List.any_cons, List.any_nil, Bool.or_false,
    Bool.or_eq_false_iff, Bool.and_eq_false_iff, decide_eq_false_iff_not]
  omega

/-- Bare characters are formed. -/
theorem Formed.of_bare {cs : List Char} (nonempty : cs ≠ []) (all : ∀ c ∈ cs, Bare c) :
    Formed cs where
  plain := plain_of_bare all
  first := by
    obtain ⟨c, rest, rfl⟩ := List.exists_cons_of_ne_nil nonempty
    have bare := all c List.mem_cons_self
    exact ⟨c, rest, rfl, bare.not_blank, bare.2.2.2.2⟩
  last := ⟨_, _, (List.dropLast_append_getLast nonempty).symm,
    (all _ (List.getLast_mem nonempty)).not_blank⟩

/-- Plain characters are formed between two characters that are so. -/
theorem Formed.of_ends {first last : Char} {inside : List Char} (plain : Text.Plain inside)
    (hf : Text.Plain [first] ∧ Text.isBlank first = false ∧ first ≠ ']')
    (hl : Text.Plain [last] ∧ Text.isBlank last = false) :
    Formed (first :: inside ++ [last]) where
  plain := (hf.1.append plain).append hl.1
  first := ⟨first, inside ++ [last], rfl, hf.2⟩
  last := ⟨first :: inside, last, rfl, hl.2⟩

theorem formed_list {inside : List Char} (plain : Text.Plain inside) :
    Formed ('[' :: inside ++ [']']) :=
  .of_ends plain ⟨by simp [Text.Plain], by decide, by decide⟩ ⟨by simp [Text.Plain], by decide⟩

theorem formed_dict {inside : List Char} (plain : Text.Plain inside) :
    Formed ('{' :: inside ++ ['}']) :=
  .of_ends plain ⟨by simp [Text.Plain], by decide, by decide⟩ ⟨by simp [Text.Plain], by decide⟩

theorem formed_quoted (t : Text) : Formed (quoted t) := by
  have symbols : Text.Plain (t.flatMap escapeSymbol) := by
    intro d hd
    obtain ⟨s, -, hd⟩ := List.mem_flatMap.mp hd
    cases s with
    | char c => exact (escape_escaped c).plain_written d hd
    | half a =>
        have small : Symbol.firstHalf + a.val < 0x10000 := by
          unfold Symbol.firstHalf
          omega
        exact plain_unitEscape small d hd
  exact .of_ends symbols ⟨by simp [Text.Plain], by decide, by decide⟩
    ⟨by simp [Text.Plain], by decide⟩

theorem plain_newLine (depth : Nat) : Text.Plain (newLine depth) := by
  intro c hc
  rcases List.mem_cons.mp hc with rfl | hc
  · decide
  · rw [List.eq_of_mem_replicate hc]
    decide

theorem plain_key {k : Value} (h : (keyDraft k).fault = none) :
    Text.Plain (keyDraft k).written := by
  obtain ⟨t, written, -⟩ := key_written h
  exact written ▸ (formed_quoted t).plain

section

variable {untied : (depth number : Nat) → Draft}

mutual

/-- **A text that is not cut off is formed.** -/
theorem draft_formed
    (knots : ∀ depth number, (untied depth number).fault = none →
      Formed (untied depth number).written)
    (depth : Nat) :
    ∀ v : Value, (draft untied depth v).fault = none → Formed (draft untied depth v).written
  | .null, _ => (Formed.of_bare (by decide) (by simp [Bare]) : Formed "null".toList)
  | .bool true, _ => (Formed.of_bare (by decide) (by simp [Bare]) : Formed "true".toList)
  | .bool false, _ => (Formed.of_bare (by decide) (by simp [Bare]) : Formed "false".toList)
  | .int n, h => by
      have written : (draft untied depth (.int n)).written = Decimal.integer n :=
        (integerDraft_fault h).2
      exact written ▸ .of_bare (Decimal.integer_ne_nil n)
        (fun c hc => .of_mark (Layout.mark_integer n c hc))
  | .float x, _ => Formed.of_bare (Layout.document_ne_nil x)
      (fun c hc => .of_mark (Layout.document_marks x c hc))
  | .text t, _ => formed_quoted t
  | .list [], _ | .tuple [], _ => formed_list Text.Plain.nil
  | .dict [], _ => formed_dict Text.Plain.nil
  | .list (v :: rest), h | .tuple (v :: rest), h => by
      obtain ⟨-, item, more, written⟩ := list_written h
      have formed : Formed (draft untied depth (.list (v :: rest))).written := by
        have formed := formed_list
          ((plain_newLine (depth + 1)).append ((draft_formed knots (depth + 1) v item).plain.append
          ((moreItems_plain knots (depth + 1) rest more).append (plain_newLine depth))))
        simpa only [written, List.cons_append, List.append_assoc] using formed
      exact formed
  | .dict ((k, v) :: rest), h => by
      obtain ⟨-, key, item, more, written⟩ := dict_written h
      have colon : Text.Plain [':', ' '] := by simp [Text.Plain]
      have formed := formed_dict ((plain_newLine (depth + 1)).append ((plain_key key).append
        (colon.append ((draft_formed knots (depth + 1) v item).plain.append
          ((moreEntries_plain knots (depth + 1) rest more).append (plain_newLine depth))))))
      simpa only [written, List.cons_append, List.append_assoc] using formed
  | .knot _ number, h => knots depth number h
  | .bytes _, h | .set _, h | .date _, h | .instant _, h => nomatch h

theorem moreItems_plain
    (knots : ∀ depth number, (untied depth number).fault = none →
      Formed (untied depth number).written)
    (depth : Nat) :
    ∀ items : List Value, (moreItems untied depth items).fault = none →
      Text.Plain (moreItems untied depth items).written
  | [], _ => nofun
  | v :: rest, h => by
      obtain ⟨item, more, written⟩ := moreItems_written h
      have comma : Text.Plain [','] := by simp [Text.Plain]
      rw [written]
      exact (comma.append (plain_newLine depth)).append
        ((draft_formed knots depth v item).plain.append (moreItems_plain knots depth rest more))

theorem moreEntries_plain
    (knots : ∀ depth number, (untied depth number).fault = none →
      Formed (untied depth number).written)
    (depth : Nat) :
    ∀ entries : List (Value × Value), (moreEntries untied depth entries).fault = none →
      Text.Plain (moreEntries untied depth entries).written
  | [], _ => nofun
  | (k, v) :: rest, h => by
      obtain ⟨key, item, more, written⟩ := moreEntries_written h
      have comma : Text.Plain [','] := by simp [Text.Plain]
      have colon : Text.Plain [':', ' '] := by simp [Text.Plain]
      rw [written]
      exact (comma.append (plain_newLine depth)).append ((plain_key key).append (colon.append
        ((draft_formed knots depth v item).plain.append (moreEntries_plain knots depth rest more))))

end

end

theorem untiedDraft_formed (knots : Knots) :
    ∀ (left : Nat) (opened : List Nat) (depth number : Nat),
    (untiedDraft knots left opened depth number).fault = none →
      Formed (untiedDraft knots left opened depth number).written := by
  intro left
  induction left with
  | zero => exact fun _ _ _ h => nomatch h
  | succ left ih =>
      intro opened depth number h
      simp only [untiedDraft] at h ⊢
      split at h
      · cases h
      · rename_i fresh
        rw [if_neg fresh]
        split at h
        · exact draft_formed (fun depth number => ih _ depth number) depth _ h
        · cases h

end Annealing.Json
