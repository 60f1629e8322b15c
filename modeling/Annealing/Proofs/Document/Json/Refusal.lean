import Annealing.Document.Json.Writer
import Annealing.Proofs.Text.Whole
import Annealing.Proofs.Value.Show

/-!
# Document — why a JSON text is cut off

A JSON text is cut off for five reasons only (`Json.Refusal`): a value of a kind that JSON lacks, a
key that is none, an integer of too many digits, collections too deep inside each other, and a
collection inside itself.  The reasons are those of single values, and go through from the parts of
a value to the whole (`Json.render_refusal`).
-/

namespace Annealing.Json

/-- Why a text can be cut off. -/
inductive Refusal : Fault → Prop where
  | kind (k : Kind) : Refusal (.notWritable k)
  | key (k : Kind) : Refusal (.badKey k)
  | digits : Refusal .tooLongToWrite
  | depth : Refusal .tooDeep
  | circle : Refusal .circular

/-- A text that is cut off for one of the reasons if at all. -/
def Draft.Refuses (d : Draft) : Prop := ∀ f, d.fault = some f → Refusal f

namespace Draft.Refuses

theorem ofChars (cs : List Char) : (Draft.ofChars cs).Refuses := by
  intro f h
  cases h

theorem cut {f : Fault} (h : Refusal f) : (Draft.cut f).Refuses := by
  intro g hg
  cases hg
  exact h

theorem andThen {a b : Draft} (ha : a.Refuses) (hb : b.Refuses) : (a.andThen b).Refuses := by
  intro f h
  unfold Draft.andThen at h
  cases cutOff : a.fault with
  | none =>
      rw [cutOff] at h
      exact hb f h
  | some g =>
      rw [cutOff] at h
      exact ha f h

theorem behind {lead : List Char} {v : Value} {item : Draft} (h : item.Refuses) :
    (Json.behind lead v item).Refuses := by
  unfold Json.behind
  split
  · exact h
  · exact (ofChars lead).andThen h

end Draft.Refuses

theorem integerDraft_of_short {n : Int} (short : Decimal.IsShort n) :
    integerDraft n = .ofChars (Decimal.integer n) := by
  rw [integerDraft, Value.written_of_short short]
  exact congrArg Draft.ofChars (Text.chars_ofChars _)

theorem integerDraft_of_not_short {n : Int} (long : ¬ Decimal.IsShort n) :
    integerDraft n = .cut .tooLongToWrite := by
  rw [integerDraft, Value.written_of_not_short long]

theorem integerDraft_refuses (n : Int) : (integerDraft n).Refuses := by
  by_cases short : Decimal.IsShort n
  · exact integerDraft_of_short short ▸ .ofChars _
  · exact integerDraft_of_not_short short ▸ .cut .digits

theorem keyDraft_refuses (k : Value) : (keyDraft k).Refuses := by
  cases k with
  | text _ | float _ | bool _ | null => exact .ofChars _
  | int n =>
      simp only [keyDraft]
      split
      · rename_i f h
        exact .cut (integerDraft_refuses n f h)
      · exact .ofChars _
  | _ => exact .cut (.key _)

section

variable {untied : (depth number : Nat) → Draft}

mutual

theorem draft_refuses (knots : ∀ depth number, (untied depth number).Refuses) (depth : Nat) :
    ∀ v : Value, (draft untied depth v).Refuses
  | .null | .bool _ | .float _ | .text _ | .list [] | .tuple [] | .dict [] => .ofChars _
  | .int n => integerDraft_refuses n
  | .list (v :: rest) | .tuple (v :: rest) => by
      simp only [draft]
      split
      · exact .cut .depth
      · exact (Draft.Refuses.behind (draft_refuses knots (depth + 1) v)).andThen
          ((moreItems_refuses knots (depth + 1) rest).andThen (.ofChars _))
  | .dict ((k, v) :: rest) => by
      simp only [draft]
      split
      · exact .cut .depth
      · refine (Draft.Refuses.ofChars _).andThen
          ((keyDraft_refuses k).andThen ((Draft.Refuses.ofChars _).andThen ?_))
        exact (draft_refuses knots (depth + 1) v).andThen
          ((moreEntries_refuses knots (depth + 1) rest).andThen (.ofChars _))
  | .knot _ number => knots depth number
  | .bytes _ | .set _ | .date _ | .instant _ => .cut (.kind _)

theorem moreItems_refuses (knots : ∀ depth number, (untied depth number).Refuses) (depth : Nat) :
    ∀ items : List Value, (moreItems untied depth items).Refuses
  | [] => .ofChars _
  | v :: rest => (Draft.Refuses.behind (draft_refuses knots depth v)).andThen
      (moreItems_refuses knots depth rest)

theorem moreEntries_refuses (knots : ∀ depth number, (untied depth number).Refuses) (depth : Nat) :
    ∀ entries : List (Value × Value), (moreEntries untied depth entries).Refuses
  | [] => .ofChars _
  | (k, v) :: rest => by
      simp only [moreEntries]
      split
      · rename_i f h
        exact .cut (keyDraft_refuses k f h)
      · refine (Draft.Refuses.ofChars _).andThen
          ((keyDraft_refuses k).andThen ((Draft.Refuses.ofChars _).andThen ?_))
        exact (draft_refuses knots depth v).andThen (moreEntries_refuses knots depth rest)

end

end

theorem untiedDraft_refuses (knots : Knots) :
    ∀ (left : Nat) (opened : List Nat) (depth number : Nat),
      (untiedDraft knots left opened depth number).Refuses := by
  intro left
  induction left with
  | zero => exact fun _ _ _ => .cut .circle
  | succ left ih =>
      intro opened depth number
      simp only [untiedDraft]
      split
      · exact .cut .circle
      · split
        · exact draft_refuses (fun depth number => ih _ depth number) depth _
        · exact .cut .circle

/-- **Why a text is cut off.** -/
theorem render_refusal {v : Value} {knots : Knots} {f : Fault}
    (h : (render v knots).fault = some f) : Refusal f :=
  draft_refuses (untiedDraft_refuses knots _ []) 0 v f h

end Annealing.Json
