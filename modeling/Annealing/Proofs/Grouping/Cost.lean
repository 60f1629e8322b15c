import Annealing.Grouping.Cost

/-!
# Grouping — every pair has its preference

The cost of a grouping reads the preference of every pair of members in one group.  Where the
members are numbers of rows (`Preferences.Covers`) and the matrix is square, every such place lies
inside, and the cost never fails (`Grouping.cost_answers`).

A grouping of integers costs the same whether it comes from outside or not
(`Grouping.costOfValue_integers`).
-/

namespace Annealing

/-- Steps that all answer answer one after another. -/
theorem mapM_answers {α β : Type} {f : α → Except Fault β} {items : List α}
    (step : ∀ a ∈ items, ∃ b, f a = .ok b) : ∃ bs, items.mapM f = .ok bs := by
  induction items with
  | nil => exact ⟨[], rfl⟩
  | cons a rest ih =>
      obtain ⟨b, hb⟩ := step a List.mem_cons_self
      obtain ⟨bs, hbs⟩ := ih fun x hx => step x (List.mem_cons_of_mem a hx)
      refine ⟨b :: bs, ?_⟩
      rw [List.mapM_cons, hb, hbs]
      rfl

/-- A fold whose steps all answer answers. -/
theorem foldlM_answers {α β : Type} {f : β → α → Except Fault β} {items : List α}
    (step : ∀ b, ∀ a ∈ items, ∃ b', f b a = .ok b') (b : β) : ∃ b', items.foldlM f b = .ok b' := by
  induction items generalizing b with
  | nil => exact ⟨b, rfl⟩
  | cons a rest ih =>
      obtain ⟨b₁, h₁⟩ := step b a List.mem_cons_self
      obtain ⟨b₂, h₂⟩ := ih (fun c x hx => step c x (List.mem_cons_of_mem a hx)) b₁
      refine ⟨b₂, ?_⟩
      rw [List.foldlM_cons, h₁]
      exact h₂

/-- The items of a pair stand in the list. -/
theorem mem_of_mem_pairs {α : Type} {items : List α} {a b : α} (h : (a, b) ∈ pairs items) :
    a ∈ items ∧ b ∈ items := by
  induction items with
  | nil => cases h
  | cons x rest ih =>
      rcases List.mem_append.mp h with h | h
      · obtain ⟨y, hy, heq⟩ := List.mem_map.mp h
        cases heq
        exact ⟨List.mem_cons_self, List.mem_cons_of_mem _ hy⟩
      · obtain ⟨ha, hb⟩ := ih h
        exact ⟨List.mem_cons_of_mem _ ha, List.mem_cons_of_mem _ hb⟩

namespace Preferences

/-- A square matrix with a row for each of these members, whose rows are counted in 64 bits. -/
structure Covers (p : Preferences) (members : List Int) : Prop where
  square : p.rows = p.columns
  counted : p.rows < 2 ^ 63
  rows : ∀ m ∈ members, 0 ≤ m ∧ m < p.rows

theorem Covers.subset {p : Preferences} {members part : List Int} (covers : p.Covers members)
    (h : part ⊆ members) : p.Covers part :=
  ⟨covers.square, covers.counted, fun m hm => covers.rows m (h hm)⟩

/-- Every pair of members has its place in the matrix. -/
theorem Covers.get?_isSome {p : Preferences} {members : List Int} (covers : p.Covers members)
    {a b : Int} (ha : a ∈ members) (hb : b ∈ members) : (p.get? a.toNat b.toNat).isSome := by
  obtain ⟨ha₀, ha₁⟩ := covers.rows a ha
  obtain ⟨hb₀, hb₁⟩ := covers.rows b hb
  have square := covers.square
  have inside : a.toNat < p.rows ∧ b.toNat < p.columns := by omega
  simp [get?, inside]

theorem lookup_answers {p : Preferences} {a b : Nat} (h : (p.get? a b).isSome) :
    ∃ x, p.lookup a b = .ok x := by
  obtain ⟨x, hx⟩ := Option.isSome_iff_exists.mp h
  exact ⟨x, by simp only [lookup, hx]⟩

end Preferences

variable {p : Preferences}

namespace Grouping

/-- Members that are numbers of rows are these numbers. -/
theorem rowNumbers_of_rows {rows : Nat} {members : List Int}
    (inside : ∀ m ∈ members, 0 ≤ m ∧ m < rows) :
    rowNumbers rows members = some (members.map Int.toNat) := by
  unfold rowNumbers
  induction members with
  | nil => rfl
  | cons m rest ih =>
      obtain ⟨h₀, h₁⟩ := inside m List.mem_cons_self
      have row : 0 ≤ m ∧ m.toNat < rows := by omega
      rw [List.mapM_cons, if_pos row, ih fun x hx => inside x (List.mem_cons_of_mem m hx)]
      rfl

/-- One member that is no row is enough to refuse all. -/
theorem rowNumbers_of_outside {rows : Nat} {members : List Int}
    (outside : ∃ m ∈ members, ¬ (0 ≤ m ∧ m < rows)) :
    rowNumbers rows members = none := by
  unfold rowNumbers
  induction members with
  | nil => simp at outside
  | cons m rest ih =>
      rw [List.mapM_cons]
      by_cases row : 0 ≤ m ∧ m.toNat < rows
      · obtain ⟨x, hx, hx'⟩ := outside
        rcases List.mem_cons.mp hx with rfl | hx
        · omega
        · rw [if_pos row, ih ⟨x, hx, hx'⟩]
          rfl
      · rw [if_neg row]
        rfl

/-- Members that are integers of 64 bits are words as they are. -/
theorem words_of_inside {members : List Int} (inside : ∀ m ∈ members, -(2 ^ 63) ≤ m ∧ m < 2 ^ 63) :
    (members.mapM fun m => Value.toWord (.int m)) = .ok members := by
  induction members with
  | nil => rfl
  | cons m rest ih =>
      have word : Value.toWord (.int m) = .ok m := by
        simp only [Value.toWord, Value.toInt]
        exact if_pos (inside m List.mem_cons_self)
      rw [List.mapM_cons, word, ih fun x hx => inside x (List.mem_cons_of_mem m hx)]
      rfl

theorem rowNumbers_of_covers {members : List Int} (covers : p.Covers members) :
    rowNumbers p.rows members = some (members.map Int.toNat) :=
  rowNumbers_of_rows covers.rows

/-- The members of a matrix fit into words. -/
theorem words_of_covers {members : List Int} (covers : p.Covers members) :
    (members.mapM fun m => Value.toWord (.int m)) = .ok members := by
  refine words_of_inside fun m hm => ?_
  obtain ⟨h₀, h₁⟩ := covers.rows m hm
  have counted := covers.counted
  omega

theorem groupScore_answers {members : List Int} (covers : p.Covers members) (shown : List Value) :
    ∃ x, groupScore p shown members = .ok x := by
  have places : ∀ ab ∈ pairs (members.map Int.toNat), ∃ x, p.lookup ab.1 ab.2 = .ok x := by
    rintro ⟨a, b⟩ hab
    obtain ⟨ha, hb⟩ := mem_of_mem_pairs hab
    obtain ⟨m, hm, rfl⟩ := List.mem_map.mp ha
    obtain ⟨n, hn, rfl⟩ := List.mem_map.mp hb
    exact Preferences.lookup_answers (covers.get?_isSome hm hn)
  obtain ⟨xs, hxs⟩ := mapM_answers places
  refine ⟨total xs, ?_⟩
  simp only [groupScore, rowNumbers_of_covers covers, Preferences.score, hxs]
  rfl

/-- **The cost of a grouping of rows never fails.** -/
theorem cost_answers {g : Grouping Int} (covers : p.Covers g.members) : ∃ k, cost p g = .ok k := by
  unfold cost
  refine foldlM_answers (fun k group hgroup => ?_) 0
  have part : group ⊆ g.members := fun m hm => List.mem_flatten_of_mem hgroup hm
  have covers := covers.subset part
  obtain ⟨x, hx⟩ := groupScore_answers covers (group.map .int)
  refine ⟨addScore k x, ?_⟩
  rw [words_of_covers covers]
  simp only [bind, Except.bind, hx]
  rfl

end Grouping

/-! ### Groupings of integers from outside -/

namespace Value

/-- Integers of a list are no further axis. -/
theorem surveyOf_integers (n : Nat) (members : List Int) :
    surveyOf ⟨1, [n], true, false⟩ 1 (members.map .int) = ⟨1, [n], true, false⟩ := by
  induction members with
  | nil => rfl
  | cons m rest ih =>
      rw [List.map_cons, surveyOf]
      exact ih

/-- A list of integers has one axis. -/
theorem shape_integers (members : List Int) :
    (Value.list (members.map .int)).shape = .ok [members.length] := by
  cases members with
  | nil => rfl
  | cons m rest =>
      have walk :
          survey .start 0 (.list ((m :: rest).map .int)) = ⟨1, [rest.length + 1], true, false⟩ := by
        simp [survey, Survey.start, Survey.limit, Survey.clashes, Survey.measured, surveyOf,
          Survey.scalar, surveyOf_integers]
      unfold shape
      rw [walk]
      rfl

theorem scalars_integers (members : List Int) :
    (Value.list (members.map .int)).scalars = members.map .int := by
  rw [scalars]
  induction members with
  | nil => rfl
  | cons m rest ih =>
      rw [List.map_cons, scalarsOf, ih]
      rfl

end Value

namespace Grouping

theorem scoreOfValue_integers (group : List Int) :
    scoreOfValue p (.list (group.map .int)) =
      (group.mapM fun m => Value.toWord (.int m)) >>= groupScore p (group.map .int) := by
  have words : (group.map Value.int).mapM Value.toWord = group.mapM fun m =>
      Value.toWord (.int m) :=
    List.mapM_map
  simp only [scoreOfValue, Value.shape_integers, Value.scalars_integers, words, bind, Except.bind]
  cases group.mapM (m := Except Fault) fun m => Value.toWord (.int m) with
  | error f => rfl
  | ok members =>
      simp only [groupScore]
      cases rowNumbers p.rows members <;> rfl

/-- A grouping of integers costs the same when it comes from outside. -/
theorem costOfValue_integers (g : Grouping Int) :
    costOfValue p (toValue (g.map (List.map .int))) = cost p g := by
  have step : ∀ (k : Float) (group : List Int),
      (do return addScore k (← scoreOfValue p (.list (group.map .int)))) =
        (do return addScore k (← groupScore p (group.map .int)
          (← group.mapM fun m => Value.toWord (.int m)))) := by
    intro k group
    rw [scoreOfValue_integers, bind_assoc]
  calc costOfValue p (toValue (g.map (List.map .int)))
      = ((g.map (List.map Value.int)).map Value.list).foldlM
          (fun k group => do return addScore k (← scoreOfValue p group)) 0 := rfl
    _ = g.foldlM
      (fun k group => do return addScore k (← scoreOfValue p (.list (group.map .int)))) 0 := by
        rw [List.map_map, List.foldlM_map]
        rfl
    _ = cost p g := by
        simp only [step]
        rfl

end Grouping

end Annealing
