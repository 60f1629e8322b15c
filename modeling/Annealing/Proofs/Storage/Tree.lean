import Annealing.Proofs.Effect
import Annealing.Storage.Tree

/-!
# Storage — what changes in a tree

An entry that is put at a place is found there, and everything else stays (`Tree.get?_insert`).
Where a path leads depends on nothing but directories, so a path leads to the same place as long as
no directory is lost (`Tree.locate_of_keepsDirectories`), and files may be made or replaced in
between.

* `Tree.SameFiles`: the same files with the same contents; directories may differ.
* `Tree.LeavesFiles`: an effect on trees that leaves all files.
* `Tree.ensureDirectory_leavesFiles`: making a directory and those around it leaves all files,
  whether it succeeds or not.
-/

namespace Annealing

namespace Tree

/-! ### One entry more -/

theorem find?_insertEntry (place other : List Text) (entry : Entry)
    (entries : List (List Text × Entry)) :
    ((insertEntry place entry entries).find? fun e => e.1 == other).map (·.2) =
      if other = place then some entry else (entries.find? fun e => e.1 == other).map (·.2) := by
  induction entries with
  | nil =>
      by_cases h : other = place
      · simp [insertEntry, h]
      · simp [insertEntry, h, Ne.symm h]
  | cons e rest ih =>
      by_cases he : e.1 = place
      · by_cases h : other = place
        · simp [insertEntry, he, h]
        · simp [insertEntry, he, h, Ne.symm h]
      · by_cases ho : e.1 = other
        · have h : other ≠ place := ho ▸ he
          simp [insertEntry, ho, h]
        · simp [insertEntry, he, ho, ih]

/-- An entry that was put is found, and all others stay. -/
theorem get?_insert (t : Tree) {place : List Text} (h : place ≠ [])
    (entry : Entry) (other : List Text) :
    (t.insert place entry).get? other = if other = place then some entry else t.get? other := by
  by_cases root : other = []
  · subst root
    simp [get?, Ne.symm h]
  · simp only [get?, insert, List.isEmpty_iff, root, if_false]
    exact find?_insertEntry place other entry t.entries

/-- What is no directory is not the root. -/
theorem ne_nil_of_not_directory {t : Tree} {place : List Text}
    (h : t.get? place ≠ some .directory) :
    place ≠ [] := by
  rintro rfl
  exact h rfl

/-! ### Paths and directories -/

/-- No directory of the one tree is lost in the other. -/
def KeepsDirectories (t t' : Tree) : Prop :=
  ∀ place, t.get? place = some .directory → t'.get? place = some .directory

theorem follow_cons_ok_iff {t : Tree} {place rest found : List Text} {name : Text} :
    t.follow place (name :: rest) = .ok found ↔
      t.get? place.reverse = some .directory ∧ ¬ nameLimit < octetCount name ∧
        t.follow (Path.stepInto place name) rest = .ok found := by
  rw [follow]
  split
  case h_1 there => simp [there]
  case h_2 content there => simp [there]
  case h_3 there =>
      rw [there]
      by_cases long : nameLimit < octetCount name
      · simp [long]
      · simp [long]

theorem mapError_ok_iff {ε ε' α : Type} {r : Except ε α} {f : ε → ε'} {a : α} :
    r.mapError f = .ok a ↔ r = .ok a := by
  cases r with
  | ok b => exact ⟨fun h => congrArg Except.ok (Except.ok.inj h),
      fun h => congrArg Except.ok (Except.ok.inj h)⟩
  | error e => exact ⟨nofun, nofun⟩

theorem locate_ok_iff {t : Tree} {p : Path} {place : List Text} :
    t.locate p = .ok place ↔
      Path.refusal? p.text = none ∧ ¬ pathLimit < octetCount p.text ∧
      t.follow [] p.names = .ok place := by
  rw [locate]
  split
  case h_1 f refusal => simp [refusal]
  case h_2 refusal =>
      rw [refusal]
      by_cases long : pathLimit < octetCount p.text
      · simp [long, mapError_ok_iff]
      · simp [long, mapError_ok_iff]

theorem follow_of_keepsDirectories {t t' : Tree} (keeps : KeepsDirectories t t')
    {names place found : List Text} (h : t.follow place names = .ok found) :
    t'.follow place names = .ok found := by
  induction names generalizing place with
  | nil => exact h
  | cons name rest ih =>
      obtain ⟨there, short, h⟩ := follow_cons_ok_iff.mp h
      exact follow_cons_ok_iff.mpr ⟨keeps _ there, short, ih h⟩

/-- **A path leads to the same place as long as no directory is lost.** -/
theorem locate_of_keepsDirectories {t t' : Tree} (keeps : KeepsDirectories t t') {p : Path}
    {place : List Text} (h : t.locate p = .ok place) : t'.locate p = .ok place := by
  obtain ⟨allowed, short, h⟩ := locate_ok_iff.mp h
  exact locate_ok_iff.mpr ⟨allowed, short, follow_of_keepsDirectories keeps h⟩

/-- The octets of a file that is there can be read. -/
theorem read_of_file {t : Tree} {p : Path} {place : List Text} {content : Content}
    (located : t.locate p = .ok place) (there : t.get? place = some (.file content)) :
    t.read p = .ok content.stored := by
  refine except_bind_ok_iff.mpr ⟨place, located, ?_⟩
  rw [there]
  rfl

/-- The last name of a path leads from the place of the names before it. -/
theorem follow_concat {t : Tree} {names place found : List Text} {last : Text}
    (h : t.follow place (names ++ [last]) = .ok found) :
    ∃ around, t.follow place names = .ok around ∧
      found = (Path.stepInto around.reverse last).reverse := by
  induction names generalizing place with
  | nil =>
      obtain ⟨-, -, h⟩ := follow_cons_ok_iff.mp h
      cases h
      exact ⟨place.reverse, rfl, by rw [List.reverse_reverse]⟩
  | cons name rest ih =>
      obtain ⟨there, short, h⟩ := follow_cons_ok_iff.mp h
      obtain ⟨around, h₁, hfound⟩ := ih h
      exact ⟨around, follow_cons_ok_iff.mpr ⟨there, short, h₁⟩, hfound⟩

/-! ### Making directories -/

/-- The files of both trees are the same. -/
def SameFiles (t t' : Tree) : Prop :=
  ∀ place content, t'.get? place = some (.file content) ↔ t.get? place = some (.file content)

theorem SameFiles.refl (t : Tree) : SameFiles t t := fun _ _ => Iff.rfl

theorem SameFiles.trans {t t₁ t₂ : Tree} (h₁ : SameFiles t t₁) (h₂ : SameFiles t₁ t₂) :
    SameFiles t t₂ :=
  fun place content => (h₂ place content).trans (h₁ place content)

/-- A directory is made where nothing was. -/
theorem makeDirectory_sameFiles {t t' : Tree} {p : Path} (h : t.makeDirectory p = .ok t') :
    SameFiles t t' := by
  obtain ⟨place, -, h⟩ := except_bind_ok_iff.mp h
  split at h
  case h_1 => cases h
  case h_2 absent =>
      cases h
      have inner : place ≠ [] := ne_nil_of_not_directory (by rw [absent]; exact nofun)
      intro other content
      rw [get?_insert t inner]
      by_cases here : other = place
      · rw [here, absent]
        simp
      · rw [if_neg here]

/-- An effect on trees that leaves all files, however it ends. -/
def LeavesFiles {α : Type} (act : Effect Tree α) : Prop :=
  ∀ t, (∃ a t', act t = .ok a t' ∧ SameFiles t t') ∨ ∃ f t', act t = .error f t' ∧ SameFiles t t'

theorem LeavesFiles.sameFiles {α : Type} {act : Effect Tree α} (leaves : LeavesFiles act)
    {t t' : Tree} {a : α} (h : act t = .ok a t') : SameFiles t t' := by
  rcases leaves t with ⟨b, t₁, h₁, same⟩ | ⟨f, t₁, h₁, same⟩
  · rw [h] at h₁
    cases h₁
    exact same
  · rw [h] at h₁
    cases h₁

theorem LeavesFiles.of_readOnly {α : Type} {act : Effect Tree α} (h : act.ReadOnly) :
    LeavesFiles act := by
  intro t
  rcases h t with ⟨a, h⟩ | ⟨f, h⟩
  · exact .inl ⟨a, t, h, .refl t⟩
  · exact .inr ⟨f, t, h, .refl t⟩

theorem LeavesFiles.bind {α β : Type} {act : Effect Tree α} {next : α → Effect Tree β}
    (first : LeavesFiles act) (rest : ∀ a, LeavesFiles (next a)) : LeavesFiles (act >>= next) := by
  intro t
  rcases first t with ⟨a, t₁, h, same⟩ | ⟨f, t₁, h, same⟩
  · rcases rest a t₁ with ⟨b, t₂, h', same'⟩ | ⟨f, t₂, h', same'⟩
    · exact .inl ⟨b, t₂, Effect.bind_ok_iff.mpr ⟨a, t₁, h, h'⟩, same.trans same'⟩
    · exact .inr ⟨f, t₂, Effect.bind_error_iff.mpr (.inr ⟨a, t₁, h, h'⟩), same.trans same'⟩
  · exact .inr ⟨f, t₁, Effect.bind_error_iff.mpr (.inl h), same⟩

/-- What is tried leaves all files if both the attempt and what is done about a failure do. -/
theorem LeavesFiles.tryCatch {α : Type} {act : Effect Tree α} {handle : Fault → Effect Tree α}
    (first : LeavesFiles act) (rest : ∀ f, LeavesFiles (handle f)) :
    LeavesFiles (tryCatchThe Fault act handle) := by
  intro t
  have caught : tryCatchThe Fault act handle t = match act t with
      | .ok a t' => .ok a t'
      | .error f t' => handle f t' := by
    change EStateM.tryCatch act handle t = _
    unfold EStateM.tryCatch
    cases act t <;> rfl
  rw [caught]
  rcases first t with ⟨a, t₁, h, same⟩ | ⟨f, t₁, h, same⟩
  · rw [h]
    exact .inl ⟨a, t₁, rfl, same⟩
  · rw [h]
    rcases rest f t₁ with ⟨a, t₂, h', same'⟩ | ⟨e, t₂, h', same'⟩
    · exact .inl ⟨a, t₂, h', same.trans same'⟩
    · exact .inr ⟨e, t₂, h', same.trans same'⟩

theorem asking_apply {α : Type} (ask : Tree → Except Fault α) (t : Tree) :
    asking ask t = match ask t with
      | .ok a => .ok a t
      | .error f => .error f t := by
  change (Effect.ofExcept (ask t) : Effect Tree α) t = _
  cases ask t <;> rfl

theorem changing_apply (change : Tree → Except Fault Tree) (t : Tree) :
    changing change t = match change t with
      | .ok t' => .ok () t'
      | .error f => .error f t := by
  change (Effect.ofExcept (change t) >>= set : Effect Tree Unit) t = _
  cases change t <;> rfl

theorem asking_readOnly {α : Type} (ask : Tree → Except Fault α) : (asking ask).ReadOnly := by
  intro t
  rw [asking_apply]
  cases ask t with
  | ok a => exact .inl ⟨a, rfl⟩
  | error f => exact .inr ⟨f, rfl⟩

theorem makeDirectory_leavesFiles (p : Path) : LeavesFiles (storage.makeDirectory p) := by
  intro t
  change (∃ a t', changing (fun t => t.makeDirectory p) t = .ok a t' ∧ SameFiles t t') ∨
    ∃ f t', changing (fun t => t.makeDirectory p) t = .error f t' ∧ SameFiles t t'
  rw [changing_apply]
  cases made : t.makeDirectory p with
  | ok t' => exact .inl ⟨(), t', rfl, makeDirectory_sameFiles made⟩
  | error f => exact .inr ⟨f, t, rfl, .refl t⟩

/-- Failing unless a directory is there leaves all files. -/
theorem unlessDirectory_leavesFiles (p : Path) (f : Fault) :
    LeavesFiles (do if !(← storage.isDirectory p) then throw f) := by
  refine .bind (.of_readOnly (asking_readOnly _)) fun there => .of_readOnly ?_
  exact .ite (.throw f) (.pure ())

theorem keepDirectory_leavesFiles (p : Path) : LeavesFiles (storage.keepDirectory p) :=
  .tryCatch (makeDirectory_leavesFiles p) fun f => unlessDirectory_leavesFiles p f

/-- **Making a directory and those around it leaves all files.** -/
theorem ensureDirectory_leavesFiles (p : Path) : LeavesFiles (storage.ensureDirectory p) := by
  have names : ∀ ns : List Text, LeavesFiles (storage.ensureNames p.twoSlashes ns) := by
    intro ns
    induction ns with
    | nil => exact keepDirectory_leavesFiles _
    | cons name around ih =>
        refine .tryCatch (makeDirectory_leavesFiles _) fun f => ?_
        split
        · exact .bind ih fun _ => keepDirectory_leavesFiles _
        · exact unlessDirectory_leavesFiles _ _
  exact names p.names.reverse

end Tree

end Annealing
