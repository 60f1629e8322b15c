import Annealing.Text.Blank
import Annealing.Text.LineEnd

/-!
# Text — plain texts in files

A text of ASCII characters without a carriage return is *plain*.  A file gives a plain text back as
it is: no line end is changed, and nothing is stripped off between two characters that are no
blanks.
-/

namespace Annealing.Text

/-- Characters that a file gives back as they are: those of ASCII, and no carriage return. -/
def Plain (cs : List Char) : Prop := ∀ c ∈ cs, c.toNat < 0x80 ∧ c ≠ '\r'

namespace Plain

variable {cs : List Char}

theorem nil : Plain [] := fun _ hc => nomatch hc

theorem append {a b : List Char} (ha : Plain a) (hb : Plain b) : Plain (a ++ b) := fun c hc =>
  (List.mem_append.mp hc).elim (ha c) (hb c)

theorem of_cons {c : Char} {rest : List Char} (h : Plain (c :: rest)) : Plain rest := fun d hd =>
  h d (List.mem_cons_of_mem c hd)

/-- No line end is changed. -/
theorem unifyLineEnds (plain : Plain cs) : Text.unifyLineEnds cs = cs := by
  induction cs with
  | nil => rfl
  | cons c rest ih =>
      have other := (plain c List.mem_cons_self).2
      rw [Text.unifyLineEnds]
      · rw [if_neg other, ih plain.of_cons]
      · exact fun _ same _ => other same

end Plain

/-- Nothing is stripped off between two characters that are no blanks. -/
theorem strip_of_ends {blank : Char → Bool} {cs : List Char}
    (first : ∃ c rest, cs = c :: rest ∧ blank c = false)
    (last : ∃ before c, cs = before ++ [c] ∧ blank c = false) : strip blank cs = cs := by
  obtain ⟨c, rest, rfl, hc⟩ := first
  obtain ⟨before, d, same, hd⟩ := last
  rw [strip, List.dropWhile_cons_of_neg (by simp [hc]), same, List.reverse_append,
    List.reverse_singleton,
    List.singleton_append, List.dropWhile_cons_of_neg (by simp [hd]), List.reverse_cons,
    List.reverse_reverse]

end Annealing.Text
