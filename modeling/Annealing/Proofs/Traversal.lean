import Annealing.Proofs.Effect
import Mathlib.Data.List.Forall2

/-!
# Traversal — steps over the items of a list

A list is gone through by a step that answers or fails.  What the whole answers is the list of what
the single steps answer (`mapM_ok_iff`, `mapM_some_iff`), so the items and the answers are
counterparts, one by one.  Where a step fails, the whole fails as the first such step does
(`mapM_error_iff`).
-/

namespace Annealing

variable {α β γ : Type}

theorem mapM_ok_iff {f : α → Except Fault β} {items : List α} {answers : List β} :
    items.mapM f = .ok answers ↔ List.Forall₂ (fun a b => f a = .ok b) items answers := by
  constructor
  · intro h
    induction items generalizing answers with
    | nil =>
        cases h
        exact .nil
    | cons a rest ih =>
        rw [List.mapM_cons] at h
        obtain ⟨b, first, h⟩ := except_bind_ok_iff.mp h
        obtain ⟨bs, others, h⟩ := except_bind_ok_iff.mp h
        cases h
        exact .cons first (ih others)
  · intro h
    induction h with
    | nil => rfl
    | cons first _ ih =>
        rw [List.mapM_cons, first, ih]
        rfl

/-- A traversal fails at the first item that fails, as it does. -/
theorem mapM_error_iff {f : α → Except Fault β} {items : List α} {e : Fault} :
    items.mapM f = .error e ↔
      ∃ before a after, items = before ++ a :: after ∧ (∀ b ∈ before, ∃ answer, f b = .ok answer) ∧
        f a = .error e := by
  constructor
  · intro h
    induction items with
    | nil => cases h
    | cons a rest ih =>
        rw [List.mapM_cons] at h
        rcases except_bind_error_iff.mp h with here | ⟨answer, first, h⟩
        · exact ⟨[], a, rest, rfl, nofun, here⟩
        · rcases except_bind_error_iff.mp h with later | ⟨_, _, h⟩
          · obtain ⟨before, b, after, rfl, answers, failed⟩ := ih later
            exact ⟨a :: before, b, after, rfl, List.forall_mem_cons.mpr ⟨⟨answer, first⟩, answers⟩,
              failed⟩
          · cases h
  · rintro ⟨before, a, after, rfl, answers, failed⟩
    induction before with
    | nil => rw [List.nil_append, List.mapM_cons, failed]; rfl
    | cons b before ih =>
        obtain ⟨⟨answer, first⟩, answers⟩ := List.forall_mem_cons.mp answers
        rw [List.cons_append, List.mapM_cons, first]
        exact except_bind_error_iff.mpr
          (.inr ⟨answer, rfl, except_bind_error_iff.mpr (.inl (ih answers))⟩)

/-- If every item has an answer, these are the answers. -/
theorem mapM_ok_of_each {f : α → Except Fault β} {h : α → β} {items : List α}
    (each : ∀ a ∈ items, f a = .ok (h a)) :
    items.mapM f = .ok (items.map h) :=
  mapM_ok_iff.mpr (List.forall₂_map_right_iff.mpr (List.forall₂_same.mpr each))

/-- What is made of items is answered with the items, if each of them is. -/
theorem mapM_ok_of_inverse {f : β → Except Fault α} {g : α → β} {items : List α}
    (back : ∀ a ∈ items, f (g a) = .ok a) :
    (items.map g).mapM f = .ok items := by
  have answers : items.mapM (f ∘ g) = .ok (items.map id) := mapM_ok_of_each back
  rw [List.mapM_map, answers, List.map_id]

/-- If there is an answer for each item, so there is for all. -/
theorem exists_mapM_ok {f : α → Except Fault β} {R : α → β → Prop} {items : List α}
    (each : ∀ a ∈ items, ∃ b, f a = .ok b ∧ R a b) :
    ∃ answers, items.mapM f = .ok answers ∧ List.Forall₂ R items answers := by
  induction items with
  | nil => exact ⟨[], rfl, .nil⟩
  | cons a rest ih =>
      obtain ⟨⟨b, first, related⟩, others⟩ := List.forall_mem_cons.mp each
      obtain ⟨answers, more, all⟩ := ih others
      exact ⟨b :: answers, by rw [List.mapM_cons, first, more]; rfl, .cons related all⟩

/-- Answers that are read on come to what each item comes to. -/
theorem mapM_congr_answers {δ : Type} {f : α → Except Fault δ} {g : β → Except Fault δ}
    {items : List α} {answers : List β} (each : List.Forall₂ (fun a b => g b = f a) items answers) :
    answers.mapM g = items.mapM f := by
  induction each with
  | nil => rfl
  | cons first _ ih => rw [List.mapM_cons, List.mapM_cons, first, ih]

theorem mapM_some_iff {f : α → Option β} {items : List α} {answers : List β} :
    items.mapM f = some answers ↔ List.Forall₂ (fun a b => f a = some b) items answers := by
  constructor
  · intro h
    induction items generalizing answers with
    | nil =>
        cases h
        exact .nil
    | cons a rest ih =>
        rw [List.mapM_cons] at h
        obtain ⟨b, first, h⟩ := Option.bind_eq_some_iff.mp h
        obtain ⟨bs, others, h⟩ := Option.bind_eq_some_iff.mp h
        cases h
        exact .cons first (ih others)
  · intro h
    induction h with
    | nil => rfl
    | cons first _ ih =>
        rw [List.mapM_cons, first, ih]
        rfl

/-! ### Counterparts -/

/-- The items at all places are the items. -/
theorem range_map_getElem? (items : List α) :
    (List.range items.length).map (fun place => items[place]?) = items.map some := by
  refine List.ext_getElem? fun place => ?_
  by_cases inside : place < items.length <;> simp [inside]

/-- Lists of which the same is made are counterparts. -/
theorem forall₂_of_map_eq {f : α → γ} {g : β → γ} {as : List α} {bs : List β}
    (h : as.map f = bs.map g) :
    List.Forall₂ (fun a b => f a = g b) as bs := by
  rw [← List.forall₂_map_right_iff (f := g) (R := fun a c => f a = c),
    ← List.forall₂_map_left_iff (f := f) (R := Eq), h, List.forall₂_eq_eq_eq]

/-- Counterparts of counterparts. -/
theorem forall₂_trans {R : α → β → Prop} {S : β → γ → Prop} {as : List α} {bs : List β}
    {cs : List γ} (h : List.Forall₂ R as bs) (h' : List.Forall₂ S bs cs) :
    List.Forall₂ (fun a c => ∃ b, R a b ∧ S b c) as cs := by
  induction h generalizing cs with
  | nil =>
      cases h'
      exact .nil
  | cons first _ ih =>
      cases h' with
      | cons second others => exact .cons ⟨_, first, second⟩ (ih others)

/-- Every answer is that of an item. -/
theorem exists_of_forall₂ {R : α → β → Prop} {as : List α} {bs : List β}
    (h : List.Forall₂ R as bs) {b : β} (hb : b ∈ bs) :
    ∃ a ∈ as, R a b := by
  induction h with
  | nil => cases hb
  | cons first _ ih =>
      rcases List.mem_cons.mp hb with rfl | hb
      · exact ⟨_, List.mem_cons_self, first⟩
      · obtain ⟨a, ha, related⟩ := ih hb
        exact ⟨a, List.mem_cons_of_mem _ ha, related⟩

/-- Answers are what the items are read as, one by one. -/
theorem exists_reading [Inhabited β] {f : α → Except Fault β} {items : List α} {answers : List β}
    (h : items.mapM f = .ok answers) :
    ∃ read : α → β, (∀ a ∈ items, f a = .ok (read a)) ∧ answers = items.map read := by
  have each : ∀ a ∈ items, f a = .ok ((f a).toOption.getD default) := by
    intro a ha
    obtain ⟨b, -, answer⟩ := exists_of_forall₂ (mapM_ok_iff.mp h).flip ha
    rw [answer]
    rfl
  exact ⟨_, each, Except.ok.inj (h.symm.trans (mapM_ok_of_each each))⟩

/-- What is found among items is found among their counterparts, by a test that treats them
alike. -/
theorem find?_of_forall₂ {R : α → β → Prop} {test : α → Bool} {test' : β → Bool}
    (alike : ∀ a b, R a b → test a = test' b) {as : List α} {bs : List β} (h : List.Forall₂ R as bs)
    {a : α} (found : as.find? test = some a) : ∃ b, bs.find? test' = some b ∧ R a b := by
  induction h with
  | nil => cases found
  | @cons x y _ _ first _ ih =>
      have same := alike x y first
      cases here : test x with
      | true =>
          rw [here] at same
          rw [List.find?_cons_of_pos here] at found
          cases found
          exact ⟨y, List.find?_cons_of_pos same.symm, first⟩
      | false =>
          rw [List.find?_cons_of_neg (by simp [here])] at found
          rw [List.find?_cons_of_neg (by simp [← same, here])]
          exact ih found

/-- Pairs of counterparts. -/
theorem forall₂_zip_zip {δ : Type} {R : α → β → Prop} {S : γ → δ → Prop} {as : List α} {bs : List β}
    {cs : List γ} {ds : List δ} (h : List.Forall₂ R as bs) (h' : List.Forall₂ S cs ds) :
    List.Forall₂ (fun x y => R x.1 y.1 ∧ S x.2 y.2) (as.zip cs) (bs.zip ds) := by
  induction h generalizing cs ds with
  | nil => exact .nil
  | cons first _ ih =>
      cases h' with
      | nil => exact .nil
      | cons second others => exact .cons ⟨first, second⟩ (ih others)

end Annealing
