import Annealing.Text.Basic

/-!
# Text — texts of characters

A text may have halves of surrogate pairs among its symbols.  One without them is *whole*
(`Text.Whole`), and is the text of its characters.
-/

namespace Annealing.Text

/-- A text of characters, without a half that stands alone. -/
def Whole (t : Text) : Prop := ∀ s ∈ t, s.isHalf = false

theorem whole_ofChars (cs : List Char) : Whole (ofChars cs) := by
  intro s hs
  obtain ⟨c, -, rfl⟩ := List.mem_map.mp hs
  rfl

theorem whole_append {s t : Text} : (s ++ t).Whole ↔ s.Whole ∧ t.Whole := by
  simp [Whole, or_imp, forall_and]

theorem chars_ofChars (cs : List Char) : (ofChars cs).chars = cs := by
  simp [ofChars, chars, Symbol.toChar, Function.comp_def]

theorem ofChars_chars {t : Text} (whole : t.Whole) : ofChars t.chars = t := by
  rw [ofChars, chars, List.map_map]
  refine (List.map_congr_left (g := id) fun s hs => ?_).trans (List.map_id t)
  cases s with
  | char c => rfl
  | half place => cases whole _ hs

end Annealing.Text
