import Annealing.Effect

/-!
# Effect — how computations in a world end

An effect that is made of two answers exactly when both answer, one after the other
(`Effect.bind_ok_iff`), and fails where the first of them fails (`Effect.bind_error_iff`).  Every
statement about a sequence of effects is taken apart by these two.

* `Effect.ReadOnly`: an effect that leaves its world as it is, whether it answers or fails.
* `Effect.Preserves I act Q`: an effect that keeps `I` of its world, whether it answers or fails,
  and whose answers have `Q`.
* `Effect.Shows f act' act`: `act'` does in a larger world what `act` does in the part of it that
  `f` shows.  The relation passes through sequences, so a computation that is written over another
  world shows the original one as soon as its single steps do.
-/

namespace Annealing.Effect

variable {ω ω' α β : Type}

/-! ### Answers and failures -/

theorem bind_ok_iff {act : Effect ω α} {next : α → Effect ω β} {w w' : ω} {b : β} :
    (act >>= next) w = .ok b w' ↔ ∃ a w₁, act w = .ok a w₁ ∧ next a w₁ = .ok b w' := by
  simp only [bind, EStateM.bind]
  cases act w with
  | ok a w₁ =>
      constructor
      · intro h
        exact ⟨a, w₁, rfl, h⟩
      · rintro ⟨_, _, h, hn⟩
        cases h
        exact hn
  | error f w₁ => simp

theorem bind_of_ok {act : Effect ω α} {next : α → Effect ω β} {w w₁ : ω}
    {a : α} (h : act w = .ok a w₁) :
    (act >>= next) w = next a w₁ := by
  simp only [bind, EStateM.bind, h]

theorem bind_error_iff {act : Effect ω α} {next : α → Effect ω β} {w w' : ω} {f : Fault} :
    (act >>= next) w = .error f w' ↔
      act w = .error f w' ∨ ∃ a w₁, act w = .ok a w₁ ∧ next a w₁ = .error f w' := by
  simp only [bind, EStateM.bind]
  cases act w with
  | ok a w₁ =>
      constructor
      · intro h
        exact .inr ⟨a, w₁, rfl, h⟩
      · rintro (h | ⟨_, _, h, hn⟩)
        · cases h
        · cases h
          exact hn
  | error f w₁ => simp

@[simp] theorem pure_apply (a : α) (w : ω) : (pure a : Effect ω α) w = .ok a w := rfl

@[simp] theorem throw_apply (f : Fault) (w : ω) : (throw f : Effect ω α) w = .error f w := rfl

theorem ofExcept_ok_iff {r : Except Fault α} {w w' : ω} {a : α} :
    ofExcept r w = .ok a w' ↔ r = .ok a ∧ w = w' := by
  cases r with
  | ok b => simp [ofExcept]
  | error f => simp [ofExcept]

theorem inField_ok_iff {get : ω' → ω} {set : ω' → ω → ω'} {act : Effect ω α} {w w' : ω'} {a : α} :
    act.inField get set w = .ok a w' ↔ ∃ part, act (get w) = .ok a part ∧ set w part = w' := by
  simp only [inField]
  cases act (get w) with
  | ok b part =>
      constructor
      · intro h
        cases h
        exact ⟨part, rfl, rfl⟩
      · rintro ⟨_, h, rfl⟩
        cases h
        rfl
  | error f part => simp

theorem lift_ok_iff {r : Except Fault α} {w w' : ω} {a : α} :
    (MonadExcept.ofExcept r : Effect ω α) w = .ok a w' ↔ r = .ok a ∧ w = w' := by
  cases r with
  | ok b => simp [MonadExcept.ofExcept]
  | error f => simp [MonadExcept.ofExcept]

theorem lift_error_iff {r : Except Fault α} {w w' : ω} {f : Fault} :
    (MonadExcept.ofExcept r : Effect ω α) w = .error f w' ↔ r = .error f ∧ w = w' := by
  cases r with
  | ok b => simp [MonadExcept.ofExcept]
  | error e => simp [MonadExcept.ofExcept]

/-- A sequence of two that does not touch the world is a sequence of two effects. -/
theorem ofExcept_bind {r : Except Fault α} {next : α → Except Fault β} :
    (ofExcept (r >>= next) : Effect ω β) = ofExcept r >>= fun a => ofExcept (next a) := by
  cases r with
  | ok a => rfl
  | error f => rfl

theorem outcome_of_ok {act : Effect ω α} {w w' : ω} {a : α} (h : act w = .ok a w') :
    act.outcome w = (.ok a, w') := by
  rw [outcome, h]

theorem outcome_of_error {act : Effect ω α} {w w' : ω} {f : Fault} (h : act w = .error f w') :
    act.outcome w = (.error f, w') := by
  rw [outcome, h]

/-- An effect whose outcome is an answer answers. -/
theorem ok_of_outcome {act : Effect ω α} {w : ω} (h : (act.outcome w).1.isOk = true) :
    ∃ a w', act w = .ok a w' := by
  unfold outcome at h
  cases hact : act w with
  | ok a w' => exact ⟨a, w', rfl⟩
  | error f w' =>
      rw [hact] at h
      cases h

/-- An effect answers in the world that its outcome shows. -/
theorem ok_of_outcome_eq {act : Effect ω α} {w : ω} {a : α} (h : (act.outcome w).1 = .ok a) :
    act w = .ok a (act.outcome w).2 := by
  unfold outcome at h ⊢
  cases hact : act w with
  | ok b w' =>
      rw [hact] at h
      cases h
      rfl
  | error f w' =>
      rw [hact] at h
      cases h

/-! ### Effects that only read -/

/-- An effect that leaves the world as it is. -/
def ReadOnly (act : Effect ω α) : Prop :=
  ∀ w, (∃ a, act w = .ok a w) ∨ ∃ f, act w = .error f w

namespace ReadOnly

theorem pure (a : α) : ReadOnly (pure a : Effect ω α) := fun _ => .inl ⟨a, rfl⟩

theorem throw (f : Fault) : ReadOnly (throw f : Effect ω α) := fun _ => .inr ⟨f, rfl⟩

theorem lift (r : Except Fault α) : ReadOnly (MonadExcept.ofExcept r : Effect ω α) := by
  cases r with
  | ok a => exact pure a
  | error f => exact throw f

theorem bind {act : Effect ω α} {next : α → Effect ω β} (first : ReadOnly act)
    (rest : ∀ a, ReadOnly (next a)) : ReadOnly (act >>= next) := by
  intro w
  rcases first w with ⟨a, h⟩ | ⟨f, h⟩
  · rcases rest a w with ⟨b, h'⟩ | ⟨f, h'⟩
    · exact .inl ⟨b, bind_ok_iff.mpr ⟨a, w, h, h'⟩⟩
    · exact .inr ⟨f, bind_error_iff.mpr (.inr ⟨a, w, h, h'⟩)⟩
  · exact .inr ⟨f, bind_error_iff.mpr (.inl h)⟩

theorem ite {p : Prop} [Decidable p] {yes no : Effect ω α} (hy : ReadOnly yes) (hn : ReadOnly no) :
    ReadOnly (if p then yes else no) := by
  by_cases h : p
  · rwa [if_pos h]
  · rwa [if_neg h]

/-- The world behind an answer is the one before it. -/
theorem world_eq {act : Effect ω α} (h : ReadOnly act) {w w' : ω} {a : α}
    (answer : act w = .ok a w') : w' = w := by
  rcases h w with ⟨b, same⟩ | ⟨f, failed⟩
  · rw [answer] at same
    cases same
    rfl
  · rw [answer] at failed
    cases failed

end ReadOnly

/-! ### What an effect keeps -/

/-- From a world with `I`, an effect ends in one with `I`, by an answer with `Q` or by a failure. -/
def Preserves (I : ω → Prop) (act : Effect ω α) (Q : α → Prop) : Prop :=
  ∀ w, I w → (∃ a w', act w = .ok a w' ∧ I w' ∧ Q a) ∨ ∃ f w', act w = .error f w' ∧ I w'

namespace Preserves

variable {I : ω → Prop} {Q : α → Prop} {R : β → Prop}

theorem pure {a : α} (ha : Q a) : Preserves I (pure a : Effect ω α) Q :=
  fun w hw => .inl ⟨a, w, rfl, hw, ha⟩

theorem throw (f : Fault) : Preserves I (throw f : Effect ω α) Q := fun w hw => .inr ⟨f, w, rfl, hw⟩

theorem ofExcept (r : Except Fault α) : Preserves I (ofExcept r) fun _ => True := by
  cases r with
  | ok a => exact pure trivial
  | error f => exact throw f

theorem bind {act : Effect ω α} {next : α → Effect ω β} (first : Preserves I act Q)
    (rest : ∀ a, Q a → Preserves I (next a) R) : Preserves I (act >>= next) R := by
  intro w hw
  rcases first w hw with ⟨a, w₁, h, hw₁, ha⟩ | ⟨f, w₁, h, hw₁⟩
  · rw [bind_of_ok h]
    exact rest a ha w₁ hw₁
  · exact .inr ⟨f, w₁, bind_error_iff.mpr (.inl h), hw₁⟩

theorem ite {p : Prop} [Decidable p] {yes no : Effect ω α}
    (hy : Preserves I yes Q) (hn : Preserves I no Q) :
    Preserves I (if p then yes else no) Q := by
  by_cases h : p
  · rwa [if_pos h]
  · rwa [if_neg h]

end Preserves

/-! ### The part of a larger world -/

/-- An end with the part of the world that `f` shows. -/
def seen (f : ω' → ω) : EStateM.Result Fault ω' α → EStateM.Result Fault ω α
  | .ok a w => .ok a (f w)
  | .error e w => .error e (f w)

/-- `act'` does what `act` does, in the part of a larger world that `f` shows. -/
def Shows (f : ω' → ω) (act' : Effect ω' α) (act : Effect ω α) : Prop :=
  ∀ w, seen f (act' w) = act (f w)

namespace Shows

variable {f : ω' → ω}

theorem pure (a : α) : Shows f (pure a : Effect ω' α) (pure a) := fun _ => rfl

theorem throw (e : Fault) : Shows f (throw e : Effect ω' α) (throw e) := fun _ => rfl

theorem ofExcept (r : Except Fault α) : Shows f (ofExcept r : Effect ω' α) (ofExcept r) := by
  cases r with
  | ok a => exact pure a
  | error e => exact throw e

theorem bind {act' : Effect ω' α} {act : Effect ω α} {next' : α → Effect ω' β}
    {next : α → Effect ω β} (first : Shows f act' act) (rest : ∀ a, Shows f (next' a) (next a)) :
    Shows f (act' >>= next') (act >>= next) := by
  intro w
  have h := first w
  simp only [Bind.bind, EStateM.bind]
  rw [← h]
  cases act' w with
  | ok a w₁ => exact rest a w₁
  | error e w₁ => rfl

theorem ite {p : Prop} [Decidable p] {yes' no' : Effect ω' α} {yes no : Effect ω α}
    (hy : Shows f yes' yes) (hn : Shows f no' no) :
    Shows f (if p then yes' else no') (if p then yes else no) := by
  by_cases h : p
  · simpa only [if_pos h] using hy
  · simpa only [if_neg h] using hn

/-- What is shown of what is shown. -/
theorem trans {ω'' : Type} {g : ω → ω''} {act' : Effect ω' α} {act : Effect ω α}
    {part : Effect ω'' α} (h : Shows f act' act) (h' : Shows g act part) :
    Shows (fun w => g (f w)) act' part := by
  intro w
  rw [← h' (f w), ← h w]
  cases act' w <;> rfl

/-- What answers in the larger world answers in the part. -/
theorem part_ok {act' : Effect ω' α} {act : Effect ω α} (h : Shows f act' act) {w w' : ω'} {a : α}
    (hok : act' w = .ok a w') : act (f w) = .ok a (f w') := by
  rw [← h w, hok]
  rfl

/-- What answers in the part answers in the larger world. -/
theorem ok {act' : Effect ω' α} {act : Effect ω α} (h : Shows f act' act) {w : ω'} {a : α} {v : ω}
    (hok : act (f w) = .ok a v) : ∃ w', act' w = .ok a w' ∧ f w' = v := by
  have hw := h w
  rw [hok] at hw
  cases hact : act' w with
  | ok b w' =>
      rw [hact] at hw
      cases hw
      exact ⟨w', rfl, rfl⟩
  | error e w' =>
      rw [hact] at hw
      cases hw

end Shows

end Annealing.Effect

namespace Annealing

/-- A sequence of two answers exactly when both answer. -/
theorem except_bind_ok_iff {α β : Type} {r : Except Fault α} {next : α → Except Fault β} {b : β} :
    (r >>= next) = .ok b ↔ ∃ a, r = .ok a ∧ next a = .ok b := by
  cases r with
  | ok a =>
      constructor
      · intro h
        exact ⟨a, rfl, h⟩
      · rintro ⟨_, h, hn⟩
        cases h
        exact hn
  | error f => simp [bind, Except.bind]

/-- A sequence of two fails where the first of them fails. -/
theorem except_bind_error_iff {α β : Type} {r : Except Fault α}
    {next : α → Except Fault β} {f : Fault} :
    (r >>= next) = .error f ↔ r = .error f ∨ ∃ a, r = .ok a ∧ next a = .error f := by
  cases r with
  | ok a =>
      constructor
      · intro h
        exact .inr ⟨a, rfl, h⟩
      · rintro (h | ⟨_, h, hn⟩)
        · cases h
        · cases h
          exact hn
  | error f => simp [bind, Except.bind]

theorem exists_of_isOk {α : Type} {r : Except Fault α} (h : r.isOk = true) : ∃ a, r = .ok a := by
  cases r with
  | ok a => exact ⟨a, rfl⟩
  | error f => cases h

/-- What passes a check as an answer is one. -/
theorem ok_of_checked {α : Type} {r : Except Fault α} {check : α → Bool}
    (h : r.toOption.any check = true) :
    ∃ a, r = .ok a ∧ check a = true := by
  cases r with
  | ok a => exact ⟨a, rfl, h⟩
  | error f => cases h

end Annealing
