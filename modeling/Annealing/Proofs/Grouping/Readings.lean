import Annealing.Proofs.Effect
import Annealing.Proofs.Grouping.Cost

/-!
# Grouping — which places a cost reads

A cost reads the preference of every pair of members in one group.  One guard stands before: a group
with a member that is no row is refused before anything of it is read.  `Grouping.noted` is the cost
with every place noted before it is read, and `Grouping.readings` are the places that one call
reads.

* There are three ways to end.  All groups can be read and the cost is answered
  (`Grouping.cost_of_readable`); or the first group that cannot be read has a member that is no row,
  and is refused (`Grouping.cost_of_stops`); or it is a group of rows with a place beyond the
  columns, and reading this place fails (`Grouping.cost_of_falls`).
* `Grouping.cost_guarded_iff`: as long as the third way is not taken, no place outside the matrix is
  read, and members outside, and nothing else, are refused.
* `Grouping.tall_unguarded`: in a matrix with more rows than columns the guard lets a place outside
  pass.

Only the second member of a pair is a column, so the first member of a group may lie beyond the
columns (`Preferences.Readable`).
-/

namespace Annealing

variable {p : Preferences}

/-! ### Members and places -/

namespace Preferences

/-- The number of a row. -/
def IsRow (p : Preferences) (m : Int) : Prop :=
  0 ≤ m ∧ m < p.rows

/-- The number of a row that is the number of a column too. -/
def IsIndex (p : Preferences) (m : Int) : Prop :=
  p.IsRow m ∧ m < p.columns

/-- A place of the matrix. -/
def Inside (p : Preferences) (place : Nat × Nat) : Prop :=
  place.1 < p.rows ∧ place.2 < p.columns

instance (p : Preferences) (place : Nat × Nat) : Decidable (p.Inside place) :=
  inferInstanceAs (Decidable (_ ∧ _))

/-- A group of rows in which every member but the first one is a column. -/
def Readable (p : Preferences) (group : List Int) : Prop :=
  (∀ m ∈ group, p.IsRow m) ∧ ∀ m ∈ group.tail, m < p.columns

theorem readable_of_indices {group : List Int} (h : ∀ m ∈ group, p.IsIndex m) : p.Readable group :=
  ⟨fun m hm => (h m hm).1, fun m hm => (h m (List.mem_of_mem_tail hm)).2⟩

theorem lookup_inside {place : Nat × Nat} (h : p.Inside place) :
    ∃ x, p.lookup place.1 place.2 = .ok x :=
  lookup_answers (by simp only [get?, if_pos (show _ ∧ _ from h), Option.isSome_some])

theorem lookup_beyond {place : Nat × Nat} (row : place.1 < p.rows) (h : ¬ p.Inside place) :
    p.lookup place.1 place.2 = .error (.indexOutside place.2 1 p.columns) := by
  simp only [lookup, get?, if_neg (show ¬ (_ ∧ _) from h), if_pos row]

end Preferences

/-- The places of a group of rows, in the order in which they are read. -/
def placesOf (group : List Int) : List (Nat × Nat) :=
  pairs (group.map Int.toNat)

/-- The second item of a pair stands behind the first item of the list. -/
theorem snd_mem_tail_of_mem_pairs {α : Type} {items : List α} {ab : α × α} (h : ab ∈ pairs items) :
    ab.2 ∈ items.tail := by
  cases items with
  | nil => cases h
  | cons x rest =>
      rcases List.mem_append.mp h with h | h
      · obtain ⟨y, hy, rfl⟩ := List.mem_map.mp h
        exact hy
      · exact (mem_of_mem_pairs h).2

/-- Every item behind the first one is the second item of a pair. -/
theorem mem_pairs_of_mem_tail {α : Type} {items : List α} {b : α} (h : b ∈ items.tail) :
    ∃ a, (a, b) ∈ pairs items := by
  cases items with
  | nil => cases h
  | cons x rest => exact ⟨x, List.mem_append_left _ (List.mem_map.mpr ⟨b, h, rfl⟩)⟩

section

variable {group : List Int} (rows : ∀ m ∈ group, p.IsRow m)

include rows in
/-- The places of a group of rows stand in rows. -/
theorem row_of_mem_placesOf {place : Nat × Nat} (h : place ∈ placesOf group) :
    place.1 < p.rows := by
  obtain ⟨m, hm, hrow⟩ := List.mem_map.mp (mem_of_mem_pairs h).1
  obtain ⟨h₀, h₁⟩ := rows m hm
  omega

include rows in
/-- The places of a group of rows lie inside the matrix exactly when the group is readable. -/
theorem placesOf_inside_iff : (∀ place ∈ placesOf group, p.Inside place) ↔ p.Readable group := by
  constructor
  · intro inside
    refine ⟨rows, fun m hm => ?_⟩
    have hm' : m.toNat ∈ (group.map Int.toNat).tail := by
      rw [← List.map_tail]
      exact List.mem_map_of_mem hm
    obtain ⟨a, ha⟩ := mem_pairs_of_mem_tail hm'
    have column : m.toNat < p.columns := (inside _ ha).2
    obtain ⟨h₀, -⟩ := rows m (List.mem_of_mem_tail hm)
    omega
  · intro readable place hplace
    have hcolumn := snd_mem_tail_of_mem_pairs hplace
    rw [← List.map_tail] at hcolumn
    obtain ⟨m, hm, hm'⟩ := List.mem_map.mp hcolumn
    obtain ⟨h₀, -⟩ := rows m (List.mem_of_mem_tail hm)
    have column := readable.2 m hm
    refine ⟨row_of_mem_placesOf rows hplace, ?_⟩
    omega

end

/-! ### The cost with its places noted -/

namespace Preferences

/-- The entry at a place, which is noted before it is read. -/
def noted (p : Preferences) (place : Nat × Nat) : Effect (List (Nat × Nat)) Float := do
  modify (· ++ [place])
  Effect.ofExcept (p.lookup place.1 place.2)

theorem noted_apply (place : Nat × Nat) (seen : List (Nat × Nat)) :
    p.noted place seen = Effect.ofExcept (p.lookup place.1 place.2) (seen ++ [place]) := rfl

/-- Places that are read one after another are all read, or all up to the first one outside. -/
theorem noted_mapM (places : List (Nat × Nat)) (row : ∀ place ∈ places, place.1 < p.rows)
    (seen : List (Nat × Nat)) :
    ((∀ place ∈ places, p.Inside place) ∧
      ∃ xs, places.mapM p.noted seen = .ok xs (seen ++ places)) ∨
      ∃ before place after, places = before ++ place :: after ∧ ¬ p.Inside place ∧
        places.mapM p.noted seen = .error (.indexOutside place.2 1 p.columns)
          (seen ++ (before ++ [place])) := by
  induction places generalizing seen with
  | nil => exact .inl ⟨by simp, [], by simp⟩
  | cons place rest ih =>
      rw [List.mapM_cons]
      by_cases inside : p.Inside place
      · obtain ⟨x, hx⟩ := lookup_inside inside
        have first : p.noted place seen = .ok x (seen ++ [place]) := by
          rw [noted_apply, hx]
          rfl
        rw [Effect.bind_of_ok first]
        rcases ih (fun q hq => row q (List.mem_cons_of_mem place hq)) (seen ++ [place]) with
          ⟨all, xs, hxs⟩ | ⟨before, bad, after, rfl, hbad, hfault⟩
        · refine .inl ⟨by simpa using ⟨inside, by simpa using all⟩, x :: xs, ?_⟩
          rw [Effect.bind_of_ok hxs]
          simp
        · refine .inr ⟨place :: before, bad, after, rfl, hbad, ?_⟩
          rw [Effect.bind_error_iff]
          exact .inl (by simpa using hfault)
      · refine .inr ⟨[], place, rest, rfl, inside, ?_⟩
        rw [Effect.bind_error_iff, noted_apply, lookup_beyond (row place List.mem_cons_self) inside]
        exact .inl rfl

end Preferences

namespace Grouping

/-- The score of a group, with every place noted before it is read. -/
def notedScore (p : Preferences) (shown : List Value) (members : List Int) :
    Effect (List (Nat × Nat)) Float :=
  match rowNumbers p.rows members with
  | some rows => do return total (← (pairs rows).mapM p.noted)
  | none => throw (.memberOutside p.rows shown)

/-- The cost with the score of a further group, whose places are noted. -/
def notedStep (p : Preferences) (cost : Float) (group : List Int) :
    Effect (List (Nat × Nat)) Float := do
  return addScore cost (← notedScore p (group.map .int)
    (← Effect.ofExcept (group.mapM fun m => Value.toWord (.int m))))

/-- The cost of a grouping, with every place noted before it is read. -/
def noted (p : Preferences) (g : Grouping Int) : Effect (List (Nat × Nat)) Float :=
  g.foldlM (notedStep p) 0

/-- The places that the cost of a grouping reads, in their order. -/
def readings (p : Preferences) (g : Grouping Int) : List (Nat × Nat) :=
  ((noted p g).outcome []).2

/-! Without its notes, the noted cost is the cost. -/

theorem noted_shows_mapM (places : List (Nat × Nat)) :
    Effect.Shows (fun _ => ()) (places.mapM p.noted)
      (Effect.ofExcept (places.mapM fun ab => p.lookup ab.1 ab.2)) := by
  induction places with
  | nil => exact Effect.Shows.pure []
  | cons place rest ih =>
      rw [List.mapM_cons, List.mapM_cons, Effect.ofExcept_bind]
      refine Effect.Shows.bind ?_ fun x => ?_
      · intro seen
        rw [Preferences.noted_apply]
        exact Effect.Shows.ofExcept _ _
      · rw [Effect.ofExcept_bind]
        exact ih.bind fun xs => Effect.Shows.pure (x :: xs)

theorem notedScore_shows (shown : List Value) (members : List Int) :
    Effect.Shows (fun _ => ()) (notedScore p shown members)
      (Effect.ofExcept (groupScore p shown members)) := by
  unfold notedScore groupScore
  cases rowNumbers p.rows members with
  | none => exact Effect.Shows.throw _
  | some rows =>
      simp only [Preferences.score, Effect.ofExcept_bind]
      exact (noted_shows_mapM (pairs rows)).bind fun xs => Effect.Shows.pure (total xs)

theorem notedStep_shows (k : Float) (group : List Int) :
    Effect.Shows (fun _ => ()) (notedStep p k group) (Effect.ofExcept (do
      return addScore k
        (← groupScore p (group.map .int) (← group.mapM fun m => Value.toWord (.int m))))) := by
  unfold notedStep
  simp only [Effect.ofExcept_bind]
  exact (Effect.Shows.ofExcept _).bind fun members =>
    (notedScore_shows _ members).bind fun x => Effect.Shows.pure (addScore k x)

theorem noted_shows (g : Grouping Int) :
    Effect.Shows (fun _ => ()) (noted p g) (Effect.ofExcept (cost p g)) := by
  unfold noted cost
  -- the induction goes through every cost that has been reached
  generalize (0 : Float) = k
  induction g generalizing k with
  | nil => exact Effect.Shows.pure k
  | cons group rest ih =>
      rw [List.foldlM_cons, List.foldlM_cons, Effect.ofExcept_bind]
      exact (notedStep_shows k group).bind fun k' => ih k'

/-- The cost ends as the noted cost does. -/
theorem cost_of_noted {g : Grouping Int} :
    cost p g = ((noted p g).outcome []).1 := by
  -- neither an answer nor a fault depends on the notes
  have h := noted_shows (p := p) g []
  unfold Effect.outcome
  cases hnoted : noted p g [] with
  | ok k seen =>
      rw [hnoted] at h
      exact (Effect.ofExcept_ok_iff.mp h.symm).1
  | error f seen =>
      rw [hnoted] at h
      cases hcost : cost p g with
      | ok k => rw [hcost] at h; cases h
      | error f' => rw [hcost] at h; cases h; rfl

/-! ### How a cost ends -/

/-- The first group that cannot be read has a member that is no row. -/
def Stops (p : Preferences) (g : Grouping Int) : Prop :=
  ∃ before bad after, g = before ++ bad :: after ∧ (∀ group ∈ before, p.Readable group) ∧
    ∃ m ∈ bad, ¬ p.IsRow m

/-- The first group that cannot be read is a group of rows. -/
def Falls (p : Preferences) (g : Grouping Int) : Prop :=
  ∃ before bad after, g = before ++ bad :: after ∧ (∀ group ∈ before, p.Readable group) ∧
    (∀ m ∈ bad, p.IsRow m) ∧ ¬ p.Readable bad

theorem readable_or_stops_or_falls (p : Preferences) (g : Grouping Int) :
    (∀ group ∈ g, p.Readable group) ∨ Stops p g ∨ Falls p g := by
  classical
  -- the first group that cannot be read decides between the other two
  cases found : g.find? fun group => decide (¬ p.Readable group) with
  | none =>
      refine .inl fun group hgroup => ?_
      simpa using List.find?_eq_none.mp found group hgroup
  | some bad =>
      obtain ⟨hbad, before, after, rfl, hbefore⟩ := List.find?_eq_some_iff_append.mp found
      have hbefore : ∀ group ∈ before, p.Readable group := fun group hgroup => by
        simpa using hbefore group hgroup
      have hbad : ¬ p.Readable bad := of_decide_eq_true hbad
      by_cases rows : ∀ m ∈ bad, p.IsRow m
      · exact .inr (.inr ⟨before, bad, after, rfl, hbefore, rows, hbad⟩)
      · exact .inr (.inl ⟨before, bad, after, rfl, hbefore, by simpa using rows⟩)

/-- Members that are integers of 64 bits. -/
def IsWord (m : Int) : Prop :=
  -(2 ^ 63) ≤ m ∧ m < 2 ^ 63

section

variable {group : List Int} (words : ∀ m ∈ group, IsWord m) (k : Float) (seen : List (Nat × Nat))

include words in
/-- A group of rows is read place by place. -/
theorem notedStep_of_rows (rows : ∀ m ∈ group, p.IsRow m) :
    notedStep p k group = (placesOf group).mapM p.noted >>= fun xs =>
      pure (addScore k (total xs)) := by
  simp only [notedStep, words_of_inside words, notedScore, Effect.ofExcept, pure_bind,
    rowNumbers_of_rows rows, bind_assoc]
  rfl

include words in
theorem notedStep_readable (readable : p.Readable group) :
    ∃ k', notedStep p k group seen = .ok k' (seen ++ placesOf group) := by
  have inside := (placesOf_inside_iff readable.1).mpr readable
  rw [notedStep_of_rows words k readable.1]
  rcases Preferences.noted_mapM (placesOf group) (fun place h => (inside place h).1) seen with
    ⟨-, xs, hxs⟩ | ⟨before, place, after, hplaces, hplace, -⟩
  · exact ⟨addScore k (total xs), Effect.bind_of_ok hxs⟩
  · exact absurd (inside place (hplaces ▸ by simp)) hplace

include words in
theorem notedStep_refused (outside : ∃ m ∈ group, ¬ p.IsRow m) :
    notedStep p k group seen = .error (.memberOutside p.rows (group.map .int)) seen := by
  simp only [notedStep, words_of_inside words, notedScore, Effect.ofExcept, pure_bind,
    rowNumbers_of_outside outside]
  rfl

include words in
theorem notedStep_fails (rows : ∀ m ∈ group, p.IsRow m) (unreadable : ¬ p.Readable group) :
    ∃ read place, ¬ p.Inside place ∧
      notedStep p k group seen = .error (.indexOutside place.2 1 p.columns)
        (seen ++ (read ++ [place])) := by
  rw [notedStep_of_rows words k rows]
  rcases Preferences.noted_mapM (placesOf group)
    (fun place h => row_of_mem_placesOf rows h) seen with
    ⟨inside, -⟩ | ⟨read, place, after, -, hplace, hfault⟩
  · exact absurd ((placesOf_inside_iff rows).mp inside) unreadable
  · exact ⟨read, place, hplace, Effect.bind_error_iff.mpr (.inl hfault)⟩

end

section

variable {g : Grouping Int} (words : ∀ group ∈ g, ∀ m ∈ group, IsWord m)

include words in
/-- Groups that can be read are all read, one after another. -/
theorem noted_readable (readable : ∀ group ∈ g, p.Readable group) (k : Float)
    (seen : List (Nat × Nat)) :
    ∃ k', g.foldlM (notedStep p) k seen = .ok k' (seen ++ g.flatMap placesOf) := by
  induction g generalizing k seen with
  | nil => exact ⟨k, by simp⟩
  | cons group rest ih =>
      obtain ⟨k₁, first⟩ :=
        notedStep_readable (words group List.mem_cons_self) k seen
          (readable group List.mem_cons_self)
      obtain ⟨k', hk'⟩ := ih (fun x hx => words x (List.mem_cons_of_mem group hx))
        (fun x hx => readable x (List.mem_cons_of_mem group hx)) k₁ (seen ++ placesOf group)
      refine ⟨k', ?_⟩
      rw [List.foldlM_cons, Effect.bind_of_ok first, hk']
      simp

include words in
/-- A fault of a group ends the cost, when the groups before it can be read. -/
theorem noted_until {before after : Grouping Int} {bad : List Int} (hg : g = before ++ bad :: after)
    (readable : ∀ group ∈ before, p.Readable group) :
    ∃ k, ∀ f seen, notedStep p k bad (before.flatMap placesOf) = .error f seen →
      noted p g [] = .error f seen := by
  subst hg
  obtain ⟨k, hk⟩ :=
    noted_readable (fun group h => words group (List.mem_append_left _ h)) readable 0 []
  rw [List.nil_append] at hk
  refine ⟨k, fun f seen fault => ?_⟩
  rw [noted, List.foldlM_append, Effect.bind_of_ok hk, List.foldlM_cons]
  exact Effect.bind_error_iff.mpr (.inl fault)

/-- The places of groups that can be read lie inside the matrix. -/
theorem inside_of_readable {g : Grouping Int} (readable : ∀ group ∈ g, p.Readable group) :
    ∀ place ∈ g.flatMap placesOf, p.Inside place := by
  intro place hplace
  obtain ⟨group, hgroup, hplace⟩ := List.mem_flatMap.mp hplace
  exact (placesOf_inside_iff (readable group hgroup).1).mpr (readable group hgroup) place hplace

include words in
/-- Groups that can be read have a cost, and all that is read for it lies inside the matrix. -/
theorem cost_of_readable (readable : ∀ group ∈ g, p.Readable group) :
    (∃ k, cost p g = .ok k) ∧ ∀ place ∈ readings p g, p.Inside place := by
  obtain ⟨k, hk⟩ := noted_readable words readable 0 []
  have end' := Effect.outcome_of_ok hk
  refine ⟨⟨k, ?_⟩, ?_⟩
  · rw [cost_of_noted]
    exact congrArg Prod.fst end'
  · rw [readings, noted, end']
    exact inside_of_readable readable

include words in
/-- A group with a member that is no row is refused, and what has been read before lies inside the
matrix. -/
theorem cost_of_stops (stops : Stops p g) :
    (∃ group ∈ g, (∃ m ∈ group, ¬ p.IsRow m) ∧
      cost p g = .error (.memberOutside p.rows (group.map .int))) ∧
      ∀ place ∈ readings p g, p.Inside place := by
  obtain ⟨before, bad, after, hg, readable, outside⟩ := stops
  obtain ⟨k, until'⟩ := noted_until words hg readable
  have hbad : bad ∈ g := hg ▸ by simp
  have end' := Effect.outcome_of_error (until' _ _ (notedStep_refused (words bad hbad) k _ outside))
  refine ⟨⟨bad, hbad, outside, ?_⟩, ?_⟩
  · rw [cost_of_noted, end']
  · rw [readings, end']
    exact inside_of_readable readable

include words in
/-- A group of rows that cannot be read ends the cost at a place outside the matrix. -/
theorem cost_of_falls (falls : Falls p g) : ∃ place ∈ readings p g, ¬ p.Inside place ∧
    cost p g = .error (.indexOutside place.2 1 p.columns) := by
  obtain ⟨before, bad, after, hg, readable, rows, unreadable⟩ := falls
  obtain ⟨k, until'⟩ := noted_until words hg readable
  have hbad : bad ∈ g := hg ▸ by simp
  obtain ⟨read, place, hplace, fault⟩ :=
    notedStep_fails (words bad hbad) k (before.flatMap placesOf) rows unreadable
  have end' := Effect.outcome_of_error (until' _ _ fault)
  refine ⟨place, ?_, hplace, ?_⟩
  · rw [readings, end']
    simp
  · rw [cost_of_noted, end']

end

/-! ### The guard -/

/-- What the guard is there for: no place outside the matrix is read, a grouping is refused exactly
when one of its members is not valid, and what is refused is a group with its members. -/
structure Guarded (p : Preferences) (valid : Int → Prop) (g : Grouping Int) : Prop where
  inside : ∀ place ∈ readings p g, p.Inside place
  refuses : (∃ f, cost p g = .error f) ↔ ∃ group ∈ g, ∃ m ∈ group, ¬ valid m
  fault : ∀ f, cost p g = .error f → ∃ group ∈ g, f = .memberOutside p.rows (group.map .int)

section

variable {g : Grouping Int} {valid : Int → Prop}

theorem not_guarded_of_falls (words : ∀ group ∈ g, ∀ m ∈ group, IsWord m) (falls : Falls p g) :
    ¬ Guarded p valid g := by
  intro guarded
  obtain ⟨place, hplace, outside, -⟩ := cost_of_falls words falls
  exact outside (guarded.inside place hplace)

theorem guarded_of_stops (words : ∀ group ∈ g, ∀ m ∈ group, IsWord m) (stops : Stops p g)
    (row : ∀ m, valid m → p.IsRow m) : Guarded p valid g := by
  obtain ⟨⟨bad, hbad, ⟨m, hm, outside⟩, refused⟩, inside⟩ := cost_of_stops words stops
  refine ⟨inside, ⟨fun _ => ⟨bad, hbad, m, hm, fun h => outside (row m h)⟩, fun _ => ⟨_, refused⟩⟩,
    ?_⟩
  intro f hf
  rw [refused] at hf
  cases hf
  exact ⟨bad, hbad, rfl⟩

/-- Groups that can be read are guarded exactly when all of their members are valid. -/
theorem guarded_of_readable_iff (words : ∀ group ∈ g, ∀ m ∈ group, IsWord m)
    (readable : ∀ group ∈ g, p.Readable group) :
    Guarded p valid g ↔ ∀ group ∈ g, ∀ m ∈ group, valid m := by
  obtain ⟨⟨k, answered⟩, inside⟩ := cost_of_readable words readable
  constructor
  · intro guarded group hgroup m hm
    refine Classical.byContradiction fun invalid => ?_
    obtain ⟨f, hf⟩ := guarded.refuses.mpr ⟨group, hgroup, m, hm, invalid⟩
    rw [answered] at hf
    cases hf
  · intro all
    refine ⟨inside, ⟨?_, ?_⟩, ?_⟩
    · rintro ⟨f, hf⟩
      rw [answered] at hf
      cases hf
    · rintro ⟨group, hgroup, m, hm, invalid⟩
      exact absurd (all group hgroup m hm) invalid
    · intro f hf
      rw [answered] at hf
      cases hf

/-- Whatever valid members are, as long as they are numbers of rows: the guard serves exactly when
all groups can be read and have valid members, or the first group that cannot be read has a member
that is no row. -/
theorem guarded_iff (words : ∀ group ∈ g, ∀ m ∈ group, IsWord m) (row : ∀ m, valid m → p.IsRow m) :
    Guarded p valid g ↔ (∀ group ∈ g, p.Readable group ∧ ∀ m ∈ group, valid m) ∨ Stops p g := by
  constructor
  · intro guarded
    rcases readable_or_stops_or_falls p g with readable | stops | falls
    · have valid := (guarded_of_readable_iff words readable).mp guarded
      exact .inl fun group h => ⟨readable group h, valid group h⟩
    · exact .inr stops
    · exact absurd guarded (not_guarded_of_falls words falls)
  · rintro (all | stops)
    · exact (guarded_of_readable_iff words fun group h => (all group h).1).mpr fun group h =>
        (all group h).2
    · exact guarded_of_stops words stops row

/-- Where no row lies beyond the columns, every group of rows can be read. -/
theorem not_falls_of_wide (wide : p.rows ≤ p.columns) : ¬ Falls p g := by
  rintro ⟨before, bad, after, -, -, rows, unreadable⟩
  refine unreadable ⟨rows, fun m hm => ?_⟩
  obtain ⟨-, h⟩ := rows m (List.mem_of_mem_tail hm)
  omega

/-- **When the guard serves.**  Members are integers of 64 bits.  Whether the valid members are the
numbers of rows or the numbers of rows and columns alike, the guard serves exactly when all groups
can be read and have valid members, or the first group that cannot be read has a member that is no
row.  It always serves when no row lies beyond the columns. -/
theorem cost_guarded_iff (words : ∀ group ∈ g, ∀ m ∈ group, IsWord m) :
    (Guarded p p.IsRow g ↔ (∀ group ∈ g, p.Readable group) ∨ Stops p g) ∧
      (Guarded p p.IsIndex g ↔ (∀ group ∈ g, ∀ m ∈ group, p.IsIndex m) ∨ Stops p g) ∧
      (p.rows ≤ p.columns → Guarded p p.IsRow g ∧ Guarded p p.IsIndex g) := by
  have rowwise : Guarded p p.IsRow g ↔ (∀ group ∈ g, p.Readable group) ∨ Stops p g := by
    rw [guarded_iff words fun m h => h]
    exact or_congr_left
      (forall₂_congr fun group _ => and_iff_left_of_imp fun readable => readable.1)
  have indexwise : Guarded p p.IsIndex g ↔ (∀ group ∈ g, ∀ m ∈ group, p.IsIndex m) ∨ Stops p g := by
    rw [guarded_iff words fun m h => h.1]
    exact or_congr_left
      (forall₂_congr fun group _ => and_iff_right_of_imp Preferences.readable_of_indices)
  refine ⟨rowwise, indexwise, fun wide => ?_⟩
  rcases readable_or_stops_or_falls p g with readable | stops | falls
  · refine ⟨rowwise.mpr (.inl readable), indexwise.mpr (.inl fun group h m hm => ?_)⟩
    have row := (readable group h).1 m hm
    exact ⟨row, by have := row.2; omega⟩
  · exact ⟨rowwise.mpr (.inr stops), indexwise.mpr (.inr stops)⟩
  · exact absurd falls (not_falls_of_wide wide)

/-- In a matrix of three rows and two columns, the last row may stand first in its group. -/
theorem lastRow_guarded :
    (∀ group ∈ [[2, 0], [1]], ∀ m ∈ group, IsWord m) ∧
      Guarded (.zero 3 2) (Preferences.zero 3 2).IsRow [[2, 0], [1]] := by
  have words : ∀ group ∈ [[2, 0], [1]], ∀ m ∈ group, IsWord m := by simp [IsWord]
  refine ⟨words, (cost_guarded_iff words).1.mpr (.inl ?_)⟩
  simp [Preferences.Readable, Preferences.IsRow, Preferences.zero, Preferences.plain]

/-- Two rows and one column. -/
def tall : Preferences := .ofRows [[1], [1]]

/-- **The guard does not look at the columns.**  For a group of two rows, the place in the second
column of a matrix with one column is read, and what is refused is an index instead of a member. -/
theorem tall_unguarded :
    readings tall [[0, 1]] = [(0, 1)] ∧ ¬ tall.Inside (0, 1) ∧
      costOfValue tall (toValue [[.int 0, .int 1]]) = .error (.indexOutside 1 1 1) ∧
      ¬ Guarded tall tall.IsRow [[0, 1]] ∧ ¬ Guarded tall tall.IsIndex [[0, 1]] := by
  have read : readings tall [[0, 1]] = [(0, 1)] := rfl
  have outside : ¬ tall.Inside (0, 1) := by decide
  refine ⟨read, outside, (costOfValue_integers [[0, 1]]).trans rfl, fun guarded => ?_,
    fun guarded => ?_⟩
  · exact outside (guarded.inside _ (read ▸ List.mem_singleton_self _))
  · exact outside (guarded.inside _ (read ▸ List.mem_singleton_self _))

end

end Grouping

end Annealing
