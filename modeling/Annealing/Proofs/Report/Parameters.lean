import Annealing.Proofs.Document.Json.Native
import Annealing.Proofs.Options

/-!
# Report — the parameters of a run, read again

The parameters that a run reports are the five that a search has and whatever else came with them.
JSON may change the others: a key becomes a text, and a tuple a list.  The five come back as they
are, in front of the others (`Options.returned_toEntries`): their names all have an underscore, and
no text that a number or a constant makes as a key has one.
-/

namespace Annealing.Options

/-- Only a text makes a key with an underscore. -/
theorem text_of_underscore {k : Value} (underscore : Symbol.char '_' ∈ Json.keyText k) :
    ∃ t, k = .text t := by
  have plain : ∀ cs : List Char, '_' ∉ cs → Symbol.char '_' ∉ Text.ofChars cs := by
    intro cs absent h
    obtain ⟨c, hc, same⟩ := List.mem_map.mp h
    cases same
    exact absent hc
  have marks : ∀ cs : List Char, (∀ c ∈ cs, Layout.Mark c) → '_' ∉ cs := by
    intro cs all h
    rcases all '_' h with word | dash | plus | point
    · exact absurd word (by decide)
    · cases dash
    · cases plus
    · cases point
  cases k with
  | text t => exact ⟨t, rfl⟩
  | float x => exact absurd underscore (plain _ (marks _ (Layout.document_marks x)))
  | int n => exact absurd underscore (plain _ (marks _ (Layout.mark_integer n)))
  | bool b => exact absurd underscore (plain _ (by cases b <;> decide))
  | null => exact absurd underscore (plain _ (by decide))
  | _ => cases underscore

/-- A key that becomes the name of a parameter is this name. -/
theorem eq_of_keyText {name : String} (parameter : name ∈ names) {k : Value}
    (same : Json.keyText k = Text.ofString name) :
    k = .ofString name := by
  have letters : ∀ name ∈ names, '_' ∈ name.toList ∧ ∀ c ∈ name.toList, c.toNat < 0x10000 := by
    simp [names]
  obtain ⟨underscore, low⟩ := letters name parameter
  obtain ⟨t, rfl⟩ := text_of_underscore (k := k) (same ▸ List.mem_map_of_mem underscore)
  -- names have no character beyond the first 65536, so nothing was joined
  have unchanged : t.mend = t := Text.mend_of_low fun c hc => by
    rw [show t.mend = Text.ofString name from same] at hc
    obtain ⟨d, hd, mapped⟩ := List.mem_map.mp hc
    cases mapped
    exact low c hd
  exact congrArg Value.text (unchanged.symm.trans same)

variable {o : Options} {given : Value}

/-- **The five parameters come back as they are**, in front of the others as JSON has them. -/
theorem returned_toEntries (read : ofValue given = .ok o) (knots : Knots) :
    ∃ extras, Json.returned (.dict o.extras) knots = .dict extras ∧
      Json.returned (.dict o.toEntries) knots =
        .dict (Entries.ofFields o.parameters ++ extras) := by
  have parameterNames : o.parameters.map Prod.fst = names.map Text.ofString := rfl
  have apart : ∀ e ∈ o.extras, Json.keyText e.1 ∉ o.parameters.map Prod.fst := by
    intro e he listed
    rw [← others_extras read] at he
    have kept := (List.mem_filter.mp he).2
    simp only [Bool.and_eq_true, Bool.not_eq_true'] at kept
    obtain ⟨name, parameter, same⟩ := List.mem_map.mp (parameterNames ▸ listed)
    have named : isName e.1 = true := by
      rw [eq_of_keyText parameter same.symm]
      exact List.any_eq_true.mpr
        ⟨name, parameter, by rw [Value.ofString, Entries.same_text, beq_self_eq_true]⟩
    rw [kept.1] at named
    cases named
  have whole : ∀ f ∈ o.parameters, f.1.Whole := fun f hf => by
    obtain ⟨name, -, same⟩ :=
      List.mem_map.mp (parameterNames ▸ List.mem_map_of_mem hf : f.1 ∈ names.map Text.ofString)
    exact same ▸ Text.whole_ofChars _
  have front : ∀ twins, Json.imageEntries twins [] o.toEntries =
      Entries.ofFields o.parameters ++ Json.imageEntries twins [] o.extras := by
    intro twins
    have distinct : (([] ++ o.parameters).map Prod.fst).Nodup :=
      (by decide : (names.map Text.ofString).Nodup)
    have first : Json.imageEntries twins [] (Entries.ofFields o.parameters) =
        Entries.ofFields o.parameters :=
      Json.imageEntries_ofFields twins distinct whole
    have behind := Json.imageEntries_behind twins apart []
    rw [List.append_nil] at behind
    rw [toEntries_eq, Json.imageEntries_append, first, behind]
  refine ⟨_, rfl, ?_⟩
  rw [Json.returned, Json.image, front]

/-- Parameters whose others JSON has as they are come back as they are. -/
theorem returned_of_native (read : ofValue given = .ok o) {room : Nat}
    (native : Json.Native room (.dict o.extras)) (knots : Knots) :
    Json.returned (.dict o.toEntries) knots = .dict o.toEntries := by
  obtain ⟨extras, same, returned⟩ := returned_toEntries read knots
  rw [Json.returned, native.image, Value.dict.injEq] at same
  rw [returned, toEntries_eq, same]

end Annealing.Options
