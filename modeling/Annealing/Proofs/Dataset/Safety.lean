import Annealing.Proofs.Search.Safety
import Annealing.Dataset
import Annealing.Grouping.Strategy
import Annealing.Storage.Tree
import Annealing.Proofs.Grouping.Requests
import Annealing.Proofs.Grouping.Validity
import Annealing.Proofs.Preferences.Size

/-!
# Dataset — validated data never fails in a search

A dataset that was loaded has passed both checks (`Dataset.load_ok`), and its members are rows of
its preferences (`Dataset.covers_of_load`).  The groupings that such a dataset *admits* are the
rearranged ones, all of whose members are rows as well (`Dataset.Admits`).  The search for a good
grouping serves the groupings that are admitted (`Dataset.serves`): it makes neighbors by swaps
between places that hold members, and its cost never fails.

So a search among loaded data comes to an end if its schedule does, all its states are rearranged
from the groups that were loaded, and the result passes the same checks
(`Dataset.search_stays_valid`).
-/

namespace Annealing.Dataset

/-! ### What is loaded -/

theorem findPreferences_rows {ω : Type} {S : Storage (Effect ω)} {greatest : Int}
    {path : Option Path} {w w' : ω} {p : Preferences}
    (h : findPreferences S greatest path w = .ok p w') : p.rows < 2 ^ 63 := by
  cases path with
  | none =>
      obtain ⟨h, -⟩ := Effect.lift_ok_iff.mp h
      exact Preferences.upTo_rows h
  | some path =>
      obtain ⟨t, w₁, -, h⟩ := Effect.bind_ok_iff.mp h
      obtain ⟨h, -⟩ := Effect.lift_ok_iff.mp h
      exact Preferences.ofTable_rows h

/-- A dataset that was loaded is valid. -/
theorem load_ok {ω : Type} {S : Storage (Effect ω)} {cfg : Configuration} {base : Path} {w w' : ω}
    {d : Dataset} (h : load S cfg base w = .ok d w') :
    d.groups.validate = .ok () ∧ d.preferences.rows < 2 ^ 63 ∧
      d.preferences.validate d.groups.members = .ok () := by
  obtain ⟨entries, _, -, h⟩ := Effect.bind_ok_iff.mp h
  obtain ⟨tables, _, -, h⟩ := Effect.bind_ok_iff.mp h
  obtain ⟨groupsPath, _, -, h⟩ := Effect.bind_ok_iff.mp h
  obtain ⟨preferencesPath, _, -, h⟩ := Effect.bind_ok_iff.mp h
  obtain ⟨groups, _, -, h⟩ := Effect.bind_ok_iff.mp h
  obtain ⟨_, _, valid, h⟩ := Effect.bind_ok_iff.mp h
  obtain ⟨preferences, _, found, h⟩ := Effect.bind_ok_iff.mp h
  obtain ⟨_, _, fits, h⟩ := Effect.bind_ok_iff.mp h
  cases h
  exact ⟨(Effect.lift_ok_iff.mp valid).1, findPreferences_rows found,
    (Effect.lift_ok_iff.mp fits).1⟩

theorem covers_of_load {ω : Type} {S : Storage (Effect ω)} {cfg : Configuration} {base : Path}
    {w w' : ω} {d : Dataset} (h : load S cfg base w = .ok d w') :
    d.preferences.Covers d.groups.members := by
  obtain ⟨valid, counted, fits⟩ := load_ok h
  exact Preferences.covers_of_valid counted (Grouping.not_negative_of_valid valid) fits

/-! ### What a search makes of it -/

/-- A grouping that a search among the data may come to. -/
structure Admits (d : Dataset) (g : Grouping Int) : Prop where
  rearranged : Grouping.Rearranged d.groups g
  /-- Every pair of members has its place in the preferences. -/
  inside : ∀ a ∈ g.members, ∀ b ∈ g.members, (d.preferences.get? a.toNat b.toNat).isSome
  priced : ∃ k, Grouping.cost d.preferences g = .ok k

theorem admits_of_rearranged {d : Dataset} (covers : d.preferences.Covers d.groups.members)
    {g : Grouping Int} (rearranged : Grouping.Rearranged d.groups g) : d.Admits g := by
  have covers : d.preferences.Covers g.members := covers.subset rearranged.members.subset
  exact ⟨rearranged, fun _ ha _ hb => covers.get?_isSome ha hb, Grouping.cost_answers covers⟩

/-- A search for a good grouping never fails on the groupings that its data admit. -/
theorem serves {d : Dataset} (covers : d.preferences.Covers d.groups.members)
    (options : Options) (logging : Bool) :
    (Grouping.search d.preferences options logging).Serves d.Admits Grouping.Swapped fun _ =>
      True where
  copy hg rng := ⟨_, rng, rfl, hg⟩
  neighbor {g} hg rng := by
    obtain ⟨h, rng', hn, swapped⟩ := Grouping.neighbor_swaps Generator.draws_lawful g rng
    exact ⟨h, rng', hn, admits_of_rearranged covers (hg.rearranged.trans swapped.rearranged),
      swapped⟩
  cost hg rng := by
    obtain ⟨k, hk⟩ := hg.priced
    exact ⟨k, rng, Effect.ofExcept_ok_iff.mpr ⟨hk, rfl⟩, trivial⟩
  draw rng := ⟨_, _, rfl⟩
  scale := CostScale.doubles_handles

/-- **A search among loaded data never fails, and never leaves what is valid.** -/
theorem search_stays_valid {ω : Type} {S : Storage (Effect ω)} {cfg : Configuration} {base : Path}
    {w w' : ω} {d : Dataset} (loaded : load S cfg base w = .ok d w') {options : Options}
    (ends : options.schedule.Ends) (logging : Bool) (p : Progress Generator) :
    ∃ s p', (Grouping.search d.preferences options logging).run d.groups p = .ok s p' ∧
      d.Admits s.current ∧ d.Admits s.best ∧
      (∀ call ∈ (Grouping.search d.preferences options logging).journal d.groups p,
        call.Sound d.Admits Grouping.Swapped) ∧
      s.best.validate = .ok () ∧ d.preferences.validate s.best.members = .ok () := by
  obtain ⟨valid, -, fits⟩ := load_ok loaded
  have covers := covers_of_load loaded
  obtain ⟨s, p', run, hc, hb, calls⟩ := (serves covers options logging).run_answers ends
    (admits_of_rearranged covers (.refl d.groups)) p
  refine ⟨s, p', run, hc, hb, calls, ?_, ?_⟩
  · rw [Grouping.validate_rearranged hb.rearranged]
    exact valid
  · rw [Preferences.validate_perm hb.rearranged.members]
    exact fits

/-- Options with two levels. -/
def twoLevels : Options :=
  { initialTemperature := 1, coolingFactor := 0.5, minimumTemperature := 0.3,
    swapsPerTemperature := 3,
    logPeriod := 1, extras := [] }

/-- Two groups of one member each, a schedule without levels, and a version. -/
def twoSinglesEntries (version : Value) : Entries :=
  [(.ofString "groups", .list [.list [.int 0], .list [.int 1]]), (.ofString "version", version),
    (.ofString "params", .dict [(.ofString "initial_temperature", .int 1),
      (.ofString "minimum_temperature", .int 2)])]

/-- The configuration with these entries. -/
def twoSingles (version : Value) : Configuration := .plain (.dict (twoSinglesEntries version))

/-- A configuration that holds two groups of one member each and names no tables. -/
theorem load_singles {cfg : Configuration} {entries : Entries} (read : cfg.entries = .ok entries)
    (noTables : tables entries cfg.knots = .ok [])
    (own : ownGroups entries cfg.knots = .ok [[0], [1]]) (base : Path) (t : Tree) :
    load Tree.storage cfg base t = .ok ⟨[[0], [1]], .parity 2⟩ t := by
  have valid : Grouping.validate [[0], [1]] = .ok () := by
    have members : ([0, 1] : List Int).mergeSort (fun a b => decide (a ≤ b)) = [0, 1] :=
      List.mergeSort_of_pairwise (by decide)
    have sizes : ([1, 1] : List Nat).mergeSort (fun a b => decide (a ≤ b)) = [1, 1] :=
      List.mergeSort_of_pairwise (by decide)
    change Grouping.check [0, 1] [1, 1] = .ok ()
    simp only [Grouping.check, Grouping.isDistinct, Grouping.occurringSizes, members, sizes]
    rfl
  have fits : (Preferences.parity 2).validate [0, 1] = .ok () := by
    have finite : (Preferences.parity 2).isFinite = true := by
      simp [Preferences.isFinite, Preferences.parity, Preferences.plain]
    simp only [Preferences.validate, finite]
    rfl
  refine Effect.bind_ok_iff.mpr ⟨_, t, Effect.lift_ok_iff.mpr ⟨read, rfl⟩, ?_⟩
  refine Effect.bind_ok_iff.mpr ⟨[], t, Effect.lift_ok_iff.mpr ⟨noTables, rfl⟩, ?_⟩
  refine Effect.bind_ok_iff.mpr ⟨none, t, rfl, Effect.bind_ok_iff.mpr ⟨none, t, rfl, ?_⟩⟩
  refine Effect.bind_ok_iff.mpr ⟨[[0], [1]], t, Effect.lift_ok_iff.mpr ⟨own, rfl⟩, ?_⟩
  refine Effect.bind_ok_iff.mpr ⟨(), t, Effect.lift_ok_iff.mpr ⟨valid, rfl⟩, ?_⟩
  refine Effect.bind_ok_iff.mpr ⟨.parity 2, t, rfl, ?_⟩
  exact Effect.bind_ok_iff.mpr ⟨(), t, Effect.lift_ok_iff.mpr ⟨fits, rfl⟩, rfl⟩

theorem load_twoSingles (version : Value) (t : Tree) :
    load Tree.storage (twoSingles version) .root t = .ok ⟨[[0], [1]], .parity 2⟩ t :=
  load_singles rfl (by with_unfolding_all rfl) (by with_unfolding_all rfl) .root t

theorem twoSingles_stay_valid :
    ∃ d t, load Tree.storage (twoSingles .null) .root .empty = .ok d t ∧ twoLevels.schedule.Ends ∧
      ∃ s p', (Grouping.search d.preferences twoLevels true).run d.groups
        ⟨.ofNat 7, #[]⟩ = .ok s p' ∧
        s.best.validate = .ok () ∧ d.preferences.validate s.best.members = .ok () := by
  have ends : twoLevels.schedule.Ends := by
    have first : (1.0 : Float) > 0.3 := by decide
    have second : (1.0 * 0.5 : Float) > 0.3 := by decide
    have third : ¬ (1.0 * 0.5 * 0.5 : Float) > 0.3 := by decide
    refine ⟨[1.0, 1.0 * 0.5], .more ?_ rfl (.more ?_ rfl (.stop ?_))⟩
    · exact congrArg Except.ok (decide_eq_true first)
    · exact congrArg Except.ok (decide_eq_true second)
    · exact congrArg Except.ok (decide_eq_false third)
  have loaded := load_twoSingles .null .empty
  obtain ⟨s, p', run, -, -, -, valid, fits⟩ := search_stays_valid loaded ends true ⟨.ofNat 7, #[]⟩
  exact ⟨_, _, loaded, ends, s, p', run, valid, fits⟩

end Annealing.Dataset
