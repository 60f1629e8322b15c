import Annealing.Value.Entries
import Mathlib.Data.List.Nodup

/-!
# Value — dictionaries with names as keys

The keys of a dictionary are mostly texts, and texts are the same key only if they are equal.  So
entries with texts as keys are *fields* (`Entries.ofFields`), and inserting is what it is for a list
of pairs: a name that is there takes the new value in its place, any other goes to the end.

* `Entries.update_ofFields`: what a dictionary is after many insertions at once.
-/

namespace Annealing.Entries

/-- The entries whose keys are names. -/
def ofFields (fields : List (Text × Value)) : Entries := fields.map fun f => (.text f.1, f.2)

/-- Two names are the same key if they are equal. -/
theorem same_text (s t : Text) : (Value.text s).same (.text t) = (s == t) := by
  rw [Value.same]

/-- Inserting under a name makes no key that is no name. -/
theorem named_insert {entries : Entries} (named : ∀ e ∈ entries, e.1.kind = .text)
    (name : Text) (v : Value) :
    ∀ e ∈ insert entries (.text name) v, e.1.kind = .text := by
  induction entries with
  | nil => simp [insert, Value.kind]
  | cons f rest ih =>
      have ⟨first, others⟩ := List.forall_mem_cons.mp named
      rw [insert]
      split
      · exact List.forall_mem_cons.mpr ⟨first, others⟩
      · exact List.forall_mem_cons.mpr ⟨first, ih others⟩

section

variable {fields : List (Text × Value)} {name : Text}

/-- What is found under a name is its field, or what the entries behind the fields have. -/
theorem get?_ofFields_append (fields : List (Text × Value)) (more : Entries) (name : Text) :
    get? (ofFields fields ++ more)
      (.text name) = (fields.lookup name).or (get? more (.text name)) := by
  induction fields with
  | nil => rfl
  | cons f rest ih =>
      by_cases same : f.1 = name
      · rw [List.lookup_cons, same, beq_self_eq_true]
        simp [get?, ofFields, same_text, same]
      · have step : get? (ofFields (f :: rest) ++ more)
            (.text name) = get? (ofFields rest ++ more) (.text name) := by
          simp [get?, ofFields, same_text, same]
        rw [step, ih, List.lookup_cons, beq_eq_false_iff_ne.mpr (Ne.symm same)]

/-- A field is found under its name, whatever entries are behind the fields. -/
theorem get?_ofFields {v : Value} (given : fields.lookup name = some v) (more : Entries) :
    get? (ofFields fields ++ more) (.text name) = some v := by
  rw [get?_ofFields_append, given, Option.some_or]

/-- What is found among fields. -/
theorem field?_ofFields (fields : List (Text × Value)) (name : String) :
    field? (ofFields fields) name = fields.lookup (Text.ofString name) := by
  have found := get?_ofFields_append fields [] (Text.ofString name)
  rw [List.append_nil] at found
  exact found.trans (Option.or_none)

/-- A name that is no field goes behind the fields. -/
theorem insert_behind (fresh : name ∉ fields.map Prod.fst) (more : Entries) (v : Value) :
    insert (ofFields fields ++ more)
      (.text name) v = ofFields fields ++ insert more (.text name) v := by
  induction fields with
  | nil => rfl
  | cons f rest ih =>
      have other : f.1 ≠ name := fun same => fresh (same ▸ List.mem_cons_self)
      have rest := ih fun h => fresh (List.mem_cons_of_mem _ h)
      simp only [ofFields, List.map_cons, insert, same_text, beq_eq_false_iff_ne.mpr other,
        Bool.false_eq_true, if_false, List.cons_append] at rest ⊢
      rw [rest]

/-- A name that is not there goes to the end. -/
theorem insert_fresh (fresh : name ∉ fields.map Prod.fst) (v : Value) :
    insert (ofFields fields) (.text name) v = ofFields (fields ++ [(name, v)]) := by
  have last := insert_behind fresh [] v
  rw [List.append_nil] at last
  rw [last, ofFields, ofFields, List.map_append]
  rfl

/-- A name that is there keeps its place and takes the value. -/
theorem insert_known (distinct : (fields.map Prod.fst).Nodup)
    (known : name ∈ fields.map Prod.fst) (v : Value) :
    insert (ofFields fields)
      (.text name) v = ofFields (fields.map fun f => (f.1, if f.1 = name then v else f.2)) := by
  induction fields with
  | nil => cases known
  | cons f rest ih =>
      rw [List.map_cons, List.nodup_cons] at distinct
      by_cases same : f.1 = name
      · have others : ∀ g ∈ rest, (g.1, if g.1 = name then v else g.2) = g := by
          intro g hg
          have other : g.1 ≠ name := fun h => distinct.1 (same ▸ h ▸ List.mem_map_of_mem hg)
          rw [if_neg other]
        simp only [ofFields, List.map_cons, insert, same_text, same, beq_self_eq_true, if_true]
        rw [List.map_congr_left others, List.map_id']
      · have rest := ih distinct.2 (by
          rw [List.map_cons, List.mem_cons] at known
          exact known.resolve_left (Ne.symm same))
        simp only [ofFields, List.map_cons, insert, same_text, beq_eq_false_iff_ne.mpr same,
          Bool.false_eq_true, if_false, if_neg same] at rest ⊢
        rw [rest]

end

theorem lookup_of_absent {fields : List (Text × Value)} {name : Text}
    (absent : name ∉ fields.map Prod.fst) :
    fields.lookup name = none :=
  List.lookup_eq_none_iff.mpr fun _ hf => bne_iff_ne.mpr fun same =>
    absent (same ▸ List.mem_map_of_mem hf)

/-- The fields with the values that others give to their names, and what else the others have. -/
def overridden (fields more : List (Text × Value)) : List (Text × Value) :=
  (fields.map fun f => (f.1, (more.lookup f.1).getD f.2)) ++ more.filter fun f =>
    f.1 ∉ fields.map Prod.fst

/-- Every field is one of the first or one of the others. -/
theorem mem_of_mem_overridden {fields more : List (Text × Value)} {f : Text × Value}
    (h : f ∈ overridden fields more) :
    f ∈ fields ∨ f ∈ more := by
  rcases List.mem_append.mp h with h | h
  · obtain ⟨g, hg, rfl⟩ := List.mem_map.mp h
    cases given : more.lookup g.1 with
    | none => exact .inl hg
    | some v =>
        obtain ⟨before, after, rfl, -⟩ := List.lookup_eq_some_iff.mp given
        exact .inr (List.mem_append_right _ List.mem_cons_self)
  · exact .inr (List.mem_filter.mp h).1

/-- Names that are apart stay apart. -/
theorem overridden_nodup {fields more : List (Text × Value)}
    (distinct : (fields.map Prod.fst).Nodup) (apart : (more.map Prod.fst).Nodup) :
    ((overridden fields more).map Prod.fst).Nodup := by
  have names : (fields.map fun f => (f.1, (more.lookup f.1).getD f.2)).map Prod.fst =
      fields.map Prod.fst := by
    rw [List.map_map]
    rfl
  rw [overridden, List.map_append, names, List.nodup_append]
  refine ⟨distinct, apart.sublist (List.Sublist.map _ List.filter_sublist),
    fun name known other fresh => ?_⟩
  rintro rfl
  obtain ⟨g, hg, rfl⟩ := List.mem_map.mp fresh
  exact of_decide_eq_true (List.mem_filter.mp hg).2 known

/-- Fields with names apart from all others only come to their end. -/
theorem overridden_apart {fields more : List (Text × Value)}
    (distinct : ((fields ++ more).map Prod.fst).Nodup) :
    overridden fields more = fields ++ more := by
  rw [List.map_append, List.nodup_append] at distinct
  obtain ⟨-, -, apart⟩ := distinct
  have kept : ∀ f ∈ fields, (f.1, (more.lookup f.1).getD f.2) = f := by
    intro f hf
    rw [lookup_of_absent fun there => apart f.1 (List.mem_map_of_mem hf) f.1 there rfl,
      Option.getD_none]
  have fresh : more.filter (fun f => f.1 ∉ fields.map Prod.fst) = more :=
    List.filter_eq_self.mpr fun g hg =>
    decide_eq_true fun there => apart g.1 there g.1 (List.mem_map_of_mem hg) rfl
  rw [overridden, fresh, List.map_congr_left kept, List.map_id']

section

variable {fields rest : List (Text × Value)} {f : Text × Value}

theorem lookup_cons_self : (f :: rest).lookup f.1 = some f.2 := by
  rw [List.lookup_cons, beq_self_eq_true]

theorem lookup_cons_of_ne {name : Text} (other : name ≠ f.1) :
    (f :: rest).lookup name = rest.lookup name := by
  rw [List.lookup_cons, beq_eq_false_iff_ne.mpr other]

/-- The first of the others replaces a value, and its name is not there any more among those that
follow. -/
theorem overridden_known (known : f.1 ∈ fields.map Prod.fst) (absent : f.1 ∉ rest.map Prod.fst) :
    overridden (fields.map fun g => (g.1, if g.1 = f.1 then f.2 else g.2)) rest =
      overridden fields (f :: rest) := by
  have names : (fields.map fun g => (g.1, if g.1 = f.1 then f.2 else g.2)).map Prod.fst =
      fields.map Prod.fst := by
    rw [List.map_map]
    rfl
  rw [overridden, overridden, names, List.map_map, List.filter_cons_of_neg (by simpa using known)]
  congr 1
  refine List.map_congr_left fun g _ => Prod.ext rfl ?_
  by_cases same : g.1 = f.1
  · simp [same, lookup_of_absent absent, lookup_cons_self]
  · simp [same, lookup_cons_of_ne same]

/-- The first of the others is a field more, and leads those that follow. -/
theorem overridden_fresh (fresh : f.1 ∉ fields.map Prod.fst) (absent : f.1 ∉ rest.map Prod.fst) :
    overridden (fields ++ [f]) rest = overridden fields (f :: rest) := by
  rw [overridden, overridden, List.map_append, List.append_assoc,
    List.filter_cons_of_pos (by simpa using fresh)]
  congr 1
  · refine List.map_congr_left fun g hg => ?_
    rw [lookup_cons_of_ne fun same => fresh (same ▸ List.mem_map_of_mem hg)]
  · rw [List.map_singleton, lookup_of_absent absent, Option.getD_none, List.singleton_append]
    congr 1
    refine List.filter_congr fun g hg => ?_
    have other : g.1 ≠ f.1 := fun same => absent (same ▸ List.mem_map_of_mem hg)
    simp [other]

end

/-- **Many insertions at once**: every name that is there takes the value it is given, and the
others follow in their order. -/
theorem update_ofFields {fields more : List (Text × Value)} (distinct : (fields.map Prod.fst).Nodup)
    (apart : (more.map Prod.fst).Nodup) :
    update (ofFields fields) (ofFields more) = ofFields (overridden fields more) := by
  induction more generalizing fields with
  | nil => simp [overridden, update, ofFields]
  | cons f rest ih =>
      obtain ⟨absent, apart⟩ := List.nodup_cons.mp (List.map_cons ▸ apart)
      have step : update (ofFields fields) (ofFields (f :: rest)) =
          update (insert (ofFields fields) (.text f.1) f.2) (ofFields rest) := rfl
      rw [step]
      by_cases known : f.1 ∈ fields.map Prod.fst
      · have names :
            ((fields.map fun g => (g.1, if g.1 = f.1 then f.2 else g.2)).map Prod.fst).Nodup := by
          rw [List.map_map]
          exact distinct
        rw [insert_known distinct known, ih names apart, overridden_known known absent]
      · have names : ((fields ++ [f]).map Prod.fst).Nodup := by
          rw [List.map_append, List.nodup_append]
          refine ⟨distinct, by simp, fun name hn other ho => ?_⟩
          rw [List.map_singleton, List.mem_singleton] at ho
          rintro rfl
          exact known (ho ▸ hn)
        rw [insert_fresh known, ih names apart, overridden_fresh known absent]

end Annealing.Entries
