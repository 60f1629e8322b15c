import Annealing.Proofs.Document.Json.Return
import Annealing.Proofs.Value.Entries

/-!
# Document — values that JSON has as they are

A value is *native* to JSON (`Json.Native`) if it is null, a truth value, an integer of few digits,
a double, a text of characters, or a list or a dictionary with names as keys of such values.  A
native value with few enough collections inside each other is written as a whole
(`Json.Native.whole`), and is its own image (`Json.Native.image`), so it is read again as it was.
-/

namespace Annealing.Json

/-- What JSON has as it is, with at most `room` collections inside each other, empty ones apart. -/
inductive Native : (room : Nat) → Value → Prop where
  | null {room : Nat} : Native room .null
  | bool {room : Nat} (b : Bool) : Native room (.bool b)
  | int {room : Nat} {n : Int} (short : (Decimal.natural n.natAbs).length ≤ Numeral.digitLimit) :
      Native room (.int n)
  | float {room : Nat} (x : Float) : Native room (.float x)
  | text {room : Nat} {t : Text} (whole : t.Whole) : Native room (.text t)
  | noItems {room : Nat} : Native room (.list [])
  | noEntries {room : Nat} : Native room (.dict [])
  | list {room : Nat} {items : List Value} (values : ∀ v ∈ items, Native room v) :
      Native (room + 1) (.list items)
  | dict {room : Nat} {fields : List (Text × Value)} (distinct : (fields.map Prod.fst).Nodup)
      (names : ∀ f ∈ fields, f.1.Whole) (values : ∀ f ∈ fields, Native room f.2) :
      Native (room + 1) (.dict (Entries.ofFields fields))

/-! ### Native values are written as a whole -/

section

variable {untied : (depth number : Nat) → Draft} {depth : Nat}

theorem moreItems_whole {items : List Value}
    (h : ∀ v ∈ items, (draft untied depth v).fault = none) :
    (moreItems untied depth items).fault = none := by
  induction items with
  | nil => rfl
  | cons v rest ih =>
      rw [moreItems, Draft.andThen_fault, behind_fault]
      exact ⟨h v List.mem_cons_self, ih fun w hw => h w (List.mem_cons_of_mem v hw)⟩

theorem moreEntries_whole {fields : List (Text × Value)}
    (h : ∀ f ∈ fields, (draft untied depth f.2).fault = none) :
    (moreEntries untied depth (Entries.ofFields fields)).fault = none := by
  induction fields with
  | nil => rfl
  | cons f rest ih =>
      have key : (keyDraft (.text f.1)).fault = none := rfl
      rw [Entries.ofFields, List.map_cons, moreEntries]
      simp only [key, Draft.andThen_fault]
      exact ⟨rfl, trivial, rfl, h f List.mem_cons_self,
        ih fun g hg => h g (List.mem_cons_of_mem f hg)⟩

/-- **A native value is written as a whole**, as far as there is room for its collections. -/
theorem Native.whole {room : Nat} {v : Value} (native : Native room v) :
    ∀ {depth : Nat}, depth + room ≤ nestingLimit → (draft untied depth v).fault = none := by
  induction native with
  | null | bool _ | float _ | text _ | noItems | noEntries => exact fun _ => rfl
  | @int _ n short =>
      intro depth _
      rw [draft, integerDraft_of_short short]
      rfl
  | @list room items values ih =>
      intro depth enough
      cases items with
      | nil => rfl
      | cons v rest =>
          have open_ : depth ≠ nestingLimit := by omega
          have inside : ∀ w ∈ v :: rest, (draft untied (depth + 1) w).fault = none := fun w hw =>
            ih w hw (by omega)
          simp only [draft, if_neg open_, Draft.andThen_fault, behind_fault]
          exact ⟨inside v List.mem_cons_self,
            moreItems_whole fun w hw => inside w (List.mem_cons_of_mem v hw), rfl⟩
  | @dict room fields distinct names values ih =>
      intro depth enough
      cases fields with
      | nil => rfl
      | cons f rest =>
          have open_ : depth ≠ nestingLimit := by omega
          have inside : ∀ g ∈ f :: rest, (draft untied (depth + 1) g.2).fault = none := fun g hg =>
            ih g hg (by omega)
          simp only [Entries.ofFields, List.map_cons, draft, if_neg open_, Draft.andThen_fault]
          exact ⟨rfl, rfl, rfl, inside f List.mem_cons_self,
            moreEntries_whole fun g hg => inside g (List.mem_cons_of_mem f hg), rfl⟩

end

/-! ### Native values are their own images -/

theorem imageItems_eq (twins : Nat → Value) (items : List Value) :
    imageItems twins items = items.map (Json.image twins) := by
  induction items with
  | nil => rfl
  | cons v rest ih => rw [imageItems, ih, List.map_cons]

/-- Fields with names apart are read one after the other. -/
theorem imageEntries_ofFields (twins : Nat → Value) {before fields : List (Text × Value)}
    (distinct : ((before ++ fields).map Prod.fst).Nodup) (names : ∀ f ∈ fields, f.1.Whole) :
    imageEntries twins (Entries.ofFields before) (Entries.ofFields fields) =
      Entries.ofFields (before ++ fields.map fun f => (f.1, Json.image twins f.2)) := by
  induction fields generalizing before with
  | nil => rw [List.map_nil, List.append_nil]; rfl
  | cons f rest ih =>
      have name : keyText (.text f.1) = f.1 := Text.mend_of_whole (names f List.mem_cons_self)
      have fresh : f.1 ∉ before.map Prod.fst := by
        intro there
        rw [List.map_append, List.nodup_append] at distinct
        exact distinct.2.2 f.1 there f.1 (by simp) rfl
      have apart : ((before ++ [(f.1, Json.image twins f.2)] ++ rest).map Prod.fst).Nodup := by
        simpa only [List.map_append, List.map_cons, List.map_nil, List.append_assoc,
          List.singleton_append] using distinct
      rw [show Entries.ofFields (f :: rest) = (.text f.1, f.2) :: Entries.ofFields rest from rfl,
        imageEntries, name, Entries.insert_fresh fresh,
        ih apart fun g hg => names g (List.mem_cons_of_mem f hg), List.append_assoc]
      rfl

/-- A dictionary with names as keys keeps them in their order. -/
theorem image_ofFields (twins : Nat → Value) {fields : List (Text × Value)}
    (distinct : (fields.map Prod.fst).Nodup) (names : ∀ f ∈ fields, f.1.Whole) :
    Json.image twins (.dict (Entries.ofFields fields)) =
      .dict (Entries.ofFields (fields.map fun f => (f.1, Json.image twins f.2))) := by
  have apart : (([] ++ fields).map Prod.fst).Nodup := distinct
  rw [Json.image]
  exact congrArg Value.dict (imageEntries_ofFields twins apart names)

theorem imageEntries_append (twins : Nat → Value) (before : Entries)
    (entries more : List (Value × Value)) :
    imageEntries twins before (entries ++ more) =
      imageEntries twins (imageEntries twins before entries) more := by
  induction entries generalizing before with
  | nil => rfl
  | cons e rest ih => rw [List.cons_append, imageEntries, imageEntries, ih]

/-- Fields whose names are not those of later keys stay in front. -/
theorem imageEntries_behind (twins : Nat → Value) {fields : List (Text × Value)}
    {entries : List (Value × Value)} (apart : ∀ e ∈ entries, keyText e.1 ∉ fields.map Prod.fst)
    (before : Entries) :
    imageEntries twins (Entries.ofFields fields ++ before) entries =
      Entries.ofFields fields ++ imageEntries twins before entries := by
  induction entries generalizing before with
  | nil => rfl
  | cons e rest ih =>
      obtain ⟨first, others⟩ := List.forall_mem_cons.mp apart
      rw [imageEntries, imageEntries, Entries.insert_behind first, ih others]

/-- All keys that are read are names. -/
theorem imageEntries_named (twins : Nat → Value) {before : Entries}
    (named : ∀ e ∈ before, e.1.kind = .text) (entries : List (Value × Value)) :
    ∀ e ∈ imageEntries twins before entries, e.1.kind = .text := by
  induction entries generalizing before with
  | nil => exact named
  | cons e rest ih =>
      rw [imageEntries]
      exact ih (Entries.named_insert named _ _)

/-- A dictionary with a key that is no name is not its own image. -/
theorem image_ne_of_key (twins : Nat → Value) {entries : Entries} {e : Value × Value}
    (he : e ∈ entries) (key : e.1.kind ≠ .text) :
    Json.image twins (.dict entries) ≠ .dict entries := by
  intro same
  rw [Json.image, Value.dict.injEq] at same
  have named := imageEntries_named twins (List.forall_mem_nil _) entries e
  rw [same] at named
  exact key (named he)

/-- **A native value is its own image.** -/
theorem Native.image {room : Nat} {v : Value} (native : Native room v) (twins : Nat → Value) :
    Json.image twins v = v := by
  induction native with
  | null | bool _ | int _ | float _ | noItems | noEntries => rfl
  | text whole => rw [Json.image, Text.mend_of_whole whole]
  | @list _ items values ih =>
      rw [Json.image, imageItems_eq, List.map_congr_left ih, List.map_id']
  | @dict _ fields distinct names values ih =>
      have kept : ∀ f ∈ fields, (f.1, Json.image twins f.2) = f := fun f hf =>
        Prod.ext rfl (ih f hf)
      have same : (fields.map fun f => (f.1, Json.image twins f.2)) = fields := by
        rw [List.map_congr_left kept, List.map_id']
      rw [image_ofFields twins distinct names, same]

end Annealing.Json
