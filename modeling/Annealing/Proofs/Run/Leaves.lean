import Annealing.Proofs.Dataset.Safety
import Annealing.Proofs.Document.Json.Refusal
import Annealing.Proofs.Run.Artifacts

/-!
# Run — what a run leaves behind

Whatever fails before the first file leaves all files as they were.  Of the files only the summary
can be cut off, by a value that was carried through and cannot be written.  So a run into a
directory that can be written ends in one of three ways (`Run.Leaves`), and `Run.perform_leaves`
says that there is no other.

* No file is made or changed, and the run fails.
* All files are whole and written, and the run answers.
* The summary is cut off, and the run fails: the archive is written if one was asked for, and the
  summary up to where it is cut off.  The grouping and the log are as they were.

A date as the version of a configuration is enough for the last way
(`Run.dated_version_leaves_summary`).
-/

namespace Annealing

namespace Tree

/-- These files were written into the directory that a path leads to, and all other files are as
they were. -/
structure Published (t t' : Tree) (out : Path) (written : List Artifact) : Prop where
  read : ∀ a ∈ written, t'.read (out.join a.title) = .ok a.content.stored
  /-- The files of a run that are not among them. -/
  unwritten : ∀ name ∈ Run.fileNames, Text.ofString name ∉ written.map Artifact.title → ∀ place,
    t'.locate (out.join (Text.ofString name)) = .ok place → ∀ content,
      t'.get? place = some (.file content) ↔ t.get? place = some (.file content)
  /-- Files anywhere else. -/
  others : ∀ place, (∀ a ∈ written, t'.locate (out.join a.title) ≠ .ok place) → ∀ content,
    t'.get? place = some (.file content) ↔ t.get? place = some (.file content)

theorem Filed.published {t t₁ t' : Tree} {out : Path} {dir : List Text} {written : List Artifact}
    (same : SameFiles t t₁) (takes : t₁.Takes out dir (Run.fileNames.map Text.ofString))
    (among : written.map Artifact.title ⊆ Run.fileNames.map Text.ofString)
    (filed : Filed t₁ t' dir written) :
    Published t t' out written := by
  have titled : ∀ a ∈ written, a.title ∈ Run.fileNames.map Text.ofString := fun a ha =>
    among (List.mem_map_of_mem ha)
  have keeps : KeepsDirectories t₁ t' := filed.keepsDirectories (takes.subset among)
  have located : ∀ n ∈ Run.fileNames.map Text.ofString, t'.locate (out.join n) = .ok (dir ++ [n]) :=
    fun n hn => locate_of_keepsDirectories keeps (takes.located n hn)
  have others : ∀ place, (∀ a ∈ written, place ≠ dir ++ [a.title]) → ∀ content,
      t'.get? place = some (.file content) ↔ t.get? place = some (.file content) := by
    intro place apart content
    rw [filed.others place apart]
    exact same place content
  refine ⟨fun a ha => ?_, ?_, ?_⟩
  · exact read_of_file (located _ (titled a ha)) (filed.contents a ha)
  · intro name hname absent place hplace
    rw [located _ (List.mem_map_of_mem hname)] at hplace
    cases hplace
    refine others _ fun a ha same => absent ?_
    have title : Text.ofString name = a.title := by simpa using same
    rw [title]
    exact List.mem_map_of_mem ha
  · intro place apart
    refine others place fun a ha same => apart a ha ?_
    rw [same]
    exact located _ (titled a ha)

end Tree

namespace Run

open Annealing.Tree

variable {cfg : Configuration} {base out : Path} {archive : Bool} {t : Tree}

/-- A run that has found its outcome and its arrays writes all its files, or ends with the
summary. -/
theorem perform_of_found {o : Outcome} {first : List Artifact} {t₁ : Tree}
    (made : storage.ensureDirectory out t = .ok () t₁) (writable : t₁.Writable out)
    (found : discover storage cfg base t₁ = .ok o t₁)
    (arrays : o.archiveFiles archive = .ok first) :
    (∃ t', perform storage cfg base out archive t = .ok o t' ∧
      (o.summaryFile (Outcome.archivePath out archive)).fault = none ∧
      Published t t' out (first ++ o.plainFiles out archive)) ∨
    ∃ f t', perform storage cfg base out archive t = .error f t' ∧
      (o.summaryFile (Outcome.archivePath out archive)).fault = some f ∧
      Published t t' out (first ++ [o.summaryFile (Outcome.archivePath out archive)]) := by
  have same := (ensureDirectory_leavesFiles out).sameFiles made
  obtain ⟨dir, takes⟩ := writable.takes
  obtain ⟨apart, among⟩ := Outcome.files_apart out arrays
  have files : o.artifacts out archive = .ok (first ++ o.plainFiles out archive) := by
    rw [Outcome.artifacts_eq, arrays]
    rfl
  rw [perform_eq, Effect.bind_of_ok made, Effect.bind_of_ok found,
    Effect.bind_of_ok (Effect.lift_ok_iff.mpr ⟨files, rfl⟩)]
  rcases publish_ends (takes.subset among) apart with
    ⟨t', ends, whole, filed⟩ | ⟨before, a, after, f, t', ends, split, -, cut, filed⟩
  · refine .inl ⟨t', ?_, whole _ ?_, filed.published same takes among⟩
    · rw [Effect.bind_of_ok ends]
      rfl
    · exact List.mem_append_right _ List.mem_cons_self
  · obtain ⟨rfl, rfl⟩ := Outcome.cut_is_summary arrays split cut
    refine .inr ⟨f, t', Effect.bind_error_iff.mpr (.inl ends), cut,
      filed.published same takes fun n hn => among ?_⟩
    rw [List.map_append] at hn ⊢
    rcases List.mem_append.mp hn with hn | hn
    · exact List.mem_append_left _ hn
    · rw [List.mem_singleton.mp hn]
      exact List.mem_append_right _ List.mem_cons_self

/-- What a run leaves behind, and how it ends. -/
inductive Leaves (cfg : Configuration) (base out : Path) (archive : Bool) (t : Tree) :
    EStateM.Result Fault Tree Outcome → Prop where
  /-- The run fails, and no file is made or changed. -/
  | untouched {f : Fault} {t' : Tree} (same : SameFiles t t') :
      Leaves cfg base out archive t (.error f t')
  /-- The run fails because its summary is cut off, and nothing behind the summary is written. -/
  | cutOff {o : Outcome} {first : List Artifact} {f : Fault} {t₁ t' : Tree}
      (made : storage.ensureDirectory out t = .ok () t₁)
      (found : discover storage cfg base t₁ = .ok o t₁)
      (arrays : o.archiveFiles archive = .ok first)
      (cut : (o.summaryFile (Outcome.archivePath out archive)).fault = some f)
      (refusal : Json.Refusal f)
      (published : Published t t' out
        (first ++ [o.summaryFile (Outcome.archivePath out archive)])) :
      Leaves cfg base out archive t (.error f t')
  /-- The run answers, and all its files are whole and written. -/
  | complete {o : Outcome} {first : List Artifact} {t₁ t' : Tree}
      (made : storage.ensureDirectory out t = .ok () t₁)
      (found : discover storage cfg base t₁ = .ok o t₁)
      (arrays : o.archiveFiles archive = .ok first)
      (whole : (o.summaryFile (Outcome.archivePath out archive)).fault = none)
      (published : Published t t' out (first ++ o.plainFiles out archive)) :
      Leaves cfg base out archive t (.ok o t')

/-- **What a run leaves behind.** -/
theorem perform_leaves
    (writable : ∀ t₁, storage.ensureDirectory out t = .ok () t₁ → t₁.Writable out) :
    Leaves cfg base out archive t (perform storage cfg base out archive t) := by
  rcases ensureDirectory_leavesFiles out t with ⟨u, t₁, made, same⟩ | ⟨f, t₁, failed, same⟩
  · rcases discover_readOnly cfg base t₁ with ⟨o, found⟩ | ⟨f, failed⟩
    · cases arrays : o.archiveFiles archive with
      | ok first =>
          rcases perform_of_found made (writable t₁ made) found arrays with
            ⟨t', ends, whole, published⟩ | ⟨f, t', ends, cut, published⟩
          · rw [ends]
            exact .complete made found arrays whole published
          · rw [ends]
            exact .cutOff made found arrays cut (Json.render_refusal cut) published
      | error f =>
          have files : o.artifacts out archive = .error f := by
            rw [Outcome.artifacts_eq, arrays]
            rfl
          rw [perform_eq, Effect.bind_of_ok made, Effect.bind_of_ok found, files]
          exact .untouched same
    · rw [perform_eq, Effect.bind_of_ok made, Effect.bind_error_iff.mpr (.inl failed)]
      exact .untouched same
  · rw [perform_eq, Effect.bind_error_iff.mpr (.inl failed)]
    exact .untouched same

/-- A directory in the root. -/
def results : Path := ⟨[Text.ofString "results"], false⟩

/-- The tree with this directory and nothing else. -/
def withResults : Tree := ⟨[([Text.ofString "results"], .directory)]⟩

theorem results_made : storage.ensureDirectory results .empty = .ok () withResults := by
  with_unfolding_all rfl

theorem results_writable : withResults.Writable results := by
  have placed : ∀ name ∈ fileNames,
      withResults.locate (results.join (Text.ofString name)) =
        .ok [Text.ofString "results", Text.ofString name] ∧
        withResults.get? [Text.ofString "results", Text.ofString name] = none := by
    simp only [fileNames, List.forall_mem_cons]
    refine ⟨?_, ?_, ?_, ?_, fun _ h => absurd h List.not_mem_nil⟩ <;>
      exact ⟨by with_unfolding_all rfl, by with_unfolding_all rfl⟩
  intro name hname
  obtain ⟨located, absent⟩ := placed name hname
  refine ⟨_, located, ?_⟩
  rw [absent]
  exact nofun

/-- What a run with two groups of one member each finds, without a table and from the seed zero. -/
theorem discover_singles {entries : Entries} {options : Options} {o : Outcome}
    (entered : cfg.entries = .ok entries) (noTables : Dataset.tables entries cfg.knots = .ok [])
    (own : Dataset.ownGroups entries cfg.knots = .ok [[0], [1]]) (seeded : seedOf entries = .ok 0)
    (read : optionsOf entries cfg.knots = .ok options)
    (searched : Outcome.search 0 (versionOf entries) options cfg.knots (.ofNat 0)
      ⟨[[0], [1]], .parity 2⟩ = .ok o)
    (base : Path) (t : Tree) : discover storage cfg base t = .ok o t := by
  refine Effect.bind_ok_iff.mpr ⟨entries, t, Effect.lift_ok_iff.mpr ⟨entered, rfl⟩, ?_⟩
  refine Effect.bind_ok_iff.mpr ⟨0, t, Effect.lift_ok_iff.mpr ⟨seeded, rfl⟩, ?_⟩
  refine Effect.bind_ok_iff.mpr ⟨.ofNat 0, t, rfl, ?_⟩
  refine Effect.bind_ok_iff.mpr ⟨_, t, Dataset.load_singles entered noTables own base t, ?_⟩
  refine Effect.bind_ok_iff.mpr ⟨options, t, Effect.lift_ok_iff.mpr ⟨read, rfl⟩, ?_⟩
  exact Effect.lift_ok_iff.mpr ⟨searched, rfl⟩

/-- What the search with a date as the version finds. -/
def datedOutcome : Except Fault Outcome := do
  let entries := Dataset.twoSinglesEntries (.date ⟨2024, 1, 1⟩)
  Outcome.search 0 (versionOf entries) (← optionsOf entries #[]) #[]
    (.ofNat 0) ⟨[[0], [1]], .parity 2⟩

/-- A date as the version cuts the summary off. -/
theorem twoSingles_found : ∃ o f,
    discover storage (Dataset.twoSingles (.date ⟨2024, 1, 1⟩)) .root withResults =
      .ok o withResults ∧
      (o.summaryFile none).fault = some f := by
  have checked : datedOutcome.toOption.any (fun o => (o.summaryFile none).fault.isSome) = true := by
    decide +kernel
  obtain ⟨o, answer, cut⟩ := ok_of_checked checked
  obtain ⟨f, hf⟩ := Option.isSome_iff_exists.mp cut
  obtain ⟨options, read, searched⟩ := except_bind_ok_iff.mp answer
  exact ⟨o, f, discover_singles rfl (by with_unfolding_all rfl) (by with_unfolding_all rfl)
    (by with_unfolding_all rfl)
    read searched .root withResults, hf⟩

/-- A run into a directory that can be written, which fails and leaves the start of a summary. -/
theorem dated_version_leaves_summary :
    storage.ensureDirectory results .empty = .ok () withResults ∧ withResults.Writable results ∧
      (∀ octets, Tree.empty.read (results.join (Text.ofString "metrics.json")) ≠ .ok octets) ∧
      ∃ f t', perform storage (Dataset.twoSingles (.date ⟨2024, 1, 1⟩)) .root results false .empty =
        .error f t' ∧
        ∃ octets, t'.read (results.join (Text.ofString "metrics.json")) = .ok octets := by
  refine ⟨results_made, results_writable, ?_, ?_⟩
  · intro octets h
    cases h
  · obtain ⟨o, f, found, cut⟩ := twoSingles_found
    have noArchive : o.archiveFiles false = .ok [] := rfl
    rcases perform_of_found results_made results_writable found noArchive with
      ⟨t', -, whole, -⟩ | ⟨f, t', ends, -, published⟩
    · have noPath : Outcome.archivePath results false = none := rfl
      rw [noPath, cut] at whole
      cases whole
    · have title : (o.summaryFile (Outcome.archivePath results false)).title =
          Text.ofString "metrics.json" := rfl
      have read := published.read _ (List.mem_append_right _ List.mem_cons_self)
      rw [title] at read
      exact ⟨f, t', ends, _, read⟩

theorem results_leaves :
    (∀ t₁, storage.ensureDirectory results .empty = .ok () t₁ → t₁.Writable results) ∧
      Leaves (Dataset.twoSingles (.int 1)) .root results true .empty
        (perform storage (Dataset.twoSingles (.int 1)) .root results true .empty) := by
  have writable : ∀ t₁, storage.ensureDirectory results .empty = .ok () t₁ →
      t₁.Writable results := by
    intro t₁ made
    rw [results_made] at made
    cases made
    exact results_writable
  exact ⟨writable, perform_leaves writable⟩

end Run

end Annealing
