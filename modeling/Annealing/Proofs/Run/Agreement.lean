import Annealing.Proofs.Grouping.Best
import Annealing.Proofs.Report.Parameters
import Annealing.Proofs.Report.Summary
import Annealing.Proofs.Report.Tables
import Annealing.Proofs.Run.Leaves
import Annealing.Proofs.Search.Logged

/-!
# Run — the files of a run agree with each other and with the search

A run computes the same things on several ways: the best cost is kept by the search and computed
from the best grouping, the trials are made by the search and counted from the schedule, the log is
kept and counted.  All of it is written to files.  When a run answers, these ways have led to the
same (`Run.perform_agrees`).

* `Run.Finds`: what the search of a run was, and where it has ended.
* `Run.Agrees`: what the answer of a run says of its search, and what is read from its files.
-/

namespace Annealing

namespace Outcome

/-! ### The summary -/

/-- The fields that are kept in the summary besides those of every summary. -/
def particularFields (o : Outcome) (archive : Option Path) : List (Text × Value) :=
  ("seed", .int o.seed) :: ("config_version", o.version) :: ("initial_cost",
    .float o.initialCost) ::
    ("temperature_levels", .int o.levels) ::
      (archive.map fun p => (("trace" : Text), Value.text p.text)).toList

theorem particulars_eq (o : Outcome) (archive : Option Path) :
    o.particulars archive = Entries.ofFields (o.particularFields archive) := by
  cases archive <;> rfl

/-- The fields of the summary of a run. -/
def summaryFields (o : Outcome) (archive : Option Path) : List (Text × Value) :=
  Report.leadingFields o.bestCost o.log.size (.dict o.options.toEntries) ++
    o.particularFields archive

theorem summaryFields_names (o : Outcome) (archive : Option Path) :
    (o.summaryFields archive).map Prod.fst = ["final_best_cost", "trials_logged", "params", "seed",
      "config_version",
      "initial_cost", "temperature_levels"].map Text.ofString ++ (archive.map fun _ =>
        ("trace" : Text)).toList := by
  cases archive <;> rfl

theorem summaryFields_nodup (o : Outcome) (archive : Option Path) :
    ((o.summaryFields archive).map Prod.fst).Nodup := by
  have distinct :
    (["final_best_cost", "trials_logged", "params", "seed", "config_version", "initial_cost",
      "temperature_levels"].map Text.ofString ++ [("trace" : Text)]).Nodup := by decide
  rw [summaryFields_names]
  cases archive with
  | none => exact distinct.sublist (List.sublist_append_left _ _)
  | some p => exact distinct

theorem summary_eq (o : Outcome) (archive : Option Path) :
    Report.summary o.bestCost o.log.size (.dict o.options.toEntries) (o.particulars archive) =
      .dict (Entries.ofFields (o.summaryFields archive)) := by
  have apart := o.summaryFields_nodup archive
  have distinct : ((o.particularFields archive).map Prod.fst).Nodup := by
    rw [summaryFields, List.map_append] at apart
    exact (List.nodup_append.mp apart).2.1
  rw [particulars_eq, Report.summary_eq distinct, Entries.overridden_apart apart, summaryFields]

/-- What is read from the summary of a run: parameters and version as JSON has them, and all else as
it was. -/
def returnedFields (o : Outcome) (archive : Option Path) : List (Text × Value) :=
  ("final_best_cost", .float o.bestCost) :: ("trials_logged", .int o.log.size) ::
    ("params", Json.returned (.dict o.options.toEntries) o.knots) :: ("seed", .int o.seed) ::
    ("config_version", Json.returned o.version o.knots) :: ("initial_cost", .float o.initialCost) ::
    ("temperature_levels", .int o.levels) ::
      (archive.map fun p => (("trace" : Text), Value.text p.text.mend)).toList

/-- The summary of a run, when it is read. -/
theorem returned_summary (o : Outcome) (archive : Option Path) :
    Json.returned (Report.summary o.bestCost o.log.size (.dict o.options.toEntries)
      (o.particulars archive)) o.knots =
      .dict (Entries.ofFields (o.returnedFields archive)) := by
  have names : ∀ name ∈ (o.summaryFields archive).map Prod.fst, name.Whole := by
    rw [summaryFields_names]
    intro name hname
    rcases List.mem_append.mp hname with h | h
    · obtain ⟨w, -, rfl⟩ := List.mem_map.mp h
      exact Text.whole_ofChars _
    · obtain ⟨p, -, rfl⟩ := Option.map_eq_some_iff.mp (Option.mem_toList.mp h)
      exact Text.whole_ofChars _
  have whole : ∀ f ∈ o.summaryFields archive, f.1.Whole := fun f hf =>
    names f.1 (List.mem_map_of_mem hf)
  rw [summary_eq, Json.returned, Json.image_ofFields _ (o.summaryFields_nodup archive) whole]
  cases archive <;> rfl

/-! ### The search -/

/-- What the search in a dataset was, where it has ended, and that its outcome tells of it. -/
structure Tells (o : Outcome) (generator : Generator) (data : Dataset)
    (s : Standing (Grouping ℤ) Float) : Prop where
  searched : ∃ w, (Grouping.search data.preferences o.options true).run data.groups
    ⟨generator, #[]⟩ = .ok s ⟨w, o.log⟩
  best : o.best = s.best
  bestCost : Grouping.cost data.preferences o.best = .ok o.bestCost
  initialCost : Grouping.cost data.preferences data.groups = .ok o.initialCost
  levels : o.options.schedule.length = .ok o.levels

theorem search_tells {seed : ℤ} {version : Value} {options : Options} {knots : Knots}
    {generator : Generator} {data : Dataset} {o : Outcome}
    (h : search seed version options knots generator data = .ok o) :
    o.seed = seed ∧ o.options = options ∧ ∃ s, o.Tells generator data s := by
  obtain ⟨initialCost, initial, h⟩ := except_bind_ok_iff.mp h
  obtain ⟨s, found, h⟩ := except_bind_ok_iff.mp h
  obtain ⟨bestCost, best, h⟩ := except_bind_ok_iff.mp h
  obtain ⟨levels, counted, h⟩ := except_bind_ok_iff.mp h
  cases h
  exact ⟨rfl, rfl, s, ⟨_, Effect.ok_of_outcome_eq found⟩, rfl, best, initial, counted⟩

end Outcome

namespace Run

open Annealing.Tree

/-- What a run finds before it writes anything: the outcome of a search in the dataset of its
configuration, from the seed and with the options that the outcome tells. -/
structure Finds (cfg : Configuration) (base : Path) (t : Tree) (o : Outcome) (data : Dataset)
    (s : Standing (Grouping ℤ) Float) : Prop where
  given : ∃ entries, cfg.entries = .ok entries ∧ seedOf entries = .ok o.seed ∧
    optionsOf entries cfg.knots = .ok o.options
  loaded : Dataset.load storage cfg base t = .ok data t
  told : ∃ generator, Generator.ofSeed o.seed = .ok generator ∧ o.Tells generator data s

theorem discover_finds {cfg : Configuration} {base : Path} {t t' : Tree} {o : Outcome}
    (h : discover storage cfg base t = .ok o t') : ∃ data s, Finds cfg base t o data s := by
  obtain ⟨entries, t₁, h₁, h⟩ := Effect.bind_ok_iff.mp h
  obtain ⟨read, rfl⟩ := Effect.lift_ok_iff.mp h₁
  obtain ⟨seed, t₂, h₂, h⟩ := Effect.bind_ok_iff.mp h
  obtain ⟨seeded, rfl⟩ := Effect.lift_ok_iff.mp h₂
  obtain ⟨generator, t₃, h₃, h⟩ := Effect.bind_ok_iff.mp h
  obtain ⟨made, rfl⟩ := Effect.lift_ok_iff.mp h₃
  obtain ⟨data, t₄, loaded, h⟩ := Effect.bind_ok_iff.mp h
  -- nothing is written while the dataset is loaded, so it is the one of the tree that was there
  have unchanged : t₄ = t := Effect.ReadOnly.world_eq (Dataset.load_readOnly cfg base) loaded
  rw [unchanged] at loaded h
  obtain ⟨options, t₅, h₅, h⟩ := Effect.bind_ok_iff.mp h
  obtain ⟨given, rfl⟩ := Effect.lift_ok_iff.mp h₅
  obtain ⟨searched, rfl⟩ := Effect.lift_ok_iff.mp h
  obtain ⟨rfl, rfl, s, tells⟩ := Outcome.search_tells searched
  exact ⟨data, s, ⟨entries, read, seeded, given⟩, loaded, generator, made, tells⟩

/-- What the answer of a run says of its search, and what is read from its files. -/
structure Agrees (o : Outcome) (out : Path) (archive : Bool) (data : Dataset)
    (s : Standing (Grouping ℤ) Float) (t' : Tree) : Prop where
  best : o.best = s.best
  /-- The cost that is computed from the best grouping is the one that the search has kept. -/
  bestCost : Grouping.cost data.preferences o.best = .ok o.bestCost ∧ o.bestCost = s.bestCost
  initialCost : Grouping.cost data.preferences data.groups = .ok o.initialCost
  notAbove : o.bestCost = o.initialCost ∨ o.bestCost < o.initialCost
  /-- The options that the search reads from the parameters of the answer are those of the
  answer. -/
  options : Options.ofValue (.dict o.options.toEntries) = .ok o.options
  trials : s.trials = o.levels * o.options.swapsPerTemperature.toNat
  logged : o.log.size = if s.trials = 0 then 0 else if o.options.logPeriod ≤ 1 then s.trials else
    1 + s.trials / o.options.logPeriod.toNat
  last : s.trials ≠ 0 → KeptBy o.options.logPeriod s.trials →
    ∃ row, o.log.back? = some row ∧ row.number = s.trials ∧ row.bestCost = o.bestCost
  summary : Configuration.load storage (out.join (Text.ofString "metrics.json")) t' =
    .ok (.plain (.dict (Entries.ofFields (o.returnedFields (Outcome.archivePath out archive))))) t'
  /-- In the summary the five parameters are as they were, in front of the others as JSON has
  them. -/
  parameters : ∃ extras, Json.returned (.dict o.options.extras) o.knots = .dict extras ∧
    Json.returned (.dict o.options.toEntries) o.knots =
      .dict (Entries.ofFields o.options.parameters ++ extras)
  /-- If JSON has the others as they are, so are all of them. -/
  nativeParameters : ∀ room, Json.Native room (.dict o.options.extras) →
    Json.returned (.dict o.options.toEntries) o.knots = .dict o.options.toEntries
  groups : ∃ octets, t'.read (out.join (Text.ofString "groups.csv")) = .ok octets ∧
    Table.records octets = (Grouping.columnNames.map Table.wordOf ::
      (Grouping.seats o.best).map fun seat => (Grouping.seatFields seat).map Table.wordOf, true)
  log : ∃ octets, t'.read (out.join (Text.ofString "metrics_log.csv")) = .ok octets ∧
    Table.records octets = ((Row.columns.map String.toList).map Table.wordOf ::
      o.log.toList.map fun row => row.fields.map Table.wordOf, true)

theorem isJson_summary (out : Path) :
    Configuration.isJson (out.join (Text.ofString "metrics.json")) = true := by
  have last : Path.suffixOf ((Text.ofString "metrics.json").map Path.small) =
      Text.ofString ".json" := by decide
  rw [Configuration.isJson, Path.suffix, Path.smallName, (join_fileName out (by decide)).1,
    List.getLast?_concat, Option.getD_some, last, beq_self_eq_true]

/-- The files of a run are there when all of them are written. -/
theorem publish_files {o : Outcome} {out : Path} {archive : Bool} {files : List Artifact}
    {t t' : Tree} (listed : o.artifacts out archive = .ok files)
    (published : publish storage out files t = .ok () t') :
    ∀ a ∈ o.plainFiles out archive,
      a.fault = none ∧ ∃ place, t'.locate (out.join a.title) = .ok place ∧
      t'.get? place = some (.file a.content) := by
  rw [Outcome.artifacts_eq] at listed
  obtain ⟨first, archived, listed⟩ := except_bind_ok_iff.mp listed
  cases listed
  obtain ⟨apart, among⟩ := Outcome.files_apart out archived
  exact fun a ha => publish_there apart among published (List.mem_append_right first ha)

/-- The summary of a run is loaded again. -/
theorem load_summary {o : Outcome} {out : Path} {archive : Bool} {files : List Artifact}
    {t t' : Tree} (listed : o.artifacts out archive = .ok files)
    (published : publish storage out files t = .ok () t') :
    Configuration.load storage (out.join (Text.ofString "metrics.json")) t' =
      .ok (.plain
        (.dict (Entries.ofFields (o.returnedFields (Outcome.archivePath out archive))))) t' := by
  obtain ⟨whole, place, located, there⟩ := publish_files listed published _ List.mem_cons_self
  refine Configuration.load_of_file located there ?_
  rw [isJson_summary]
  refine (Configuration.parse_render whole).trans ?_
  rw [Outcome.returned_summary]

/-- What a run has found agrees with its files when all of them are written. -/
theorem Finds.agrees {cfg : Configuration} {base out : Path} {archive : Bool} {t₁ t t' : Tree}
    {o : Outcome} {data : Dataset} {s : Standing (Grouping ℤ) Float} {files : List Artifact}
    (finds : Finds cfg base t₁ o data s) (listed : o.artifacts out archive = .ok files)
    (published : publish storage out files t = .ok () t') :
    Agrees o out archive data s t' := by
  obtain ⟨entries, -, -, given⟩ := finds.given
  obtain ⟨generator, -, tells⟩ := finds.told
  obtain ⟨w, searched⟩ := tells.searched
  have leading := Grouping.run_best tells.initialCost searched
  -- both are the cost of the one grouping
  have bestCost : o.bestCost = s.bestCost := by
    have recomputed := tells.bestCost
    rw [tells.best, leading.cost] at recomputed
    exact (Except.ok.inj recomputed).symm
  obtain ⟨levels, counted, trials, logged⟩ := Search.run_counted rfl searched
  have same : levels = o.levels := Except.ok.inj (counted.symm.trans tells.levels)
  have there := publish_files listed published
  obtain ⟨-, groupsPlace, groupsLocated, groupsThere⟩ :=
    there _ (List.mem_cons_of_mem _ List.mem_cons_self)
  obtain ⟨-, logPlace, logLocated, logThere⟩ :=
    there _ (List.mem_cons_of_mem _ (List.mem_cons_of_mem _ List.mem_cons_self))
  exact {
    best := tells.best
    bestCost := ⟨tells.bestCost, bestCost⟩
    initialCost := tells.initialCost
    notAbove := bestCost ▸ leading.notAbove
    options := Options.ofValue_toEntries given
    trials := same ▸ trials
    logged := logged.trans (Nat.zero_add _)
    last := fun made kept => by
      obtain ⟨row, last, number, cost⟩ := Search.run_last rfl searched made kept
      exact ⟨row, last, number, (Except.ok.inj cost).symm.trans bestCost.symm⟩
    summary := load_summary listed published
    parameters := Options.returned_toEntries given o.knots
    nativeParameters := fun room native => Options.returned_of_native given native o.knots
    groups := ⟨_, Tree.read_of_file groupsLocated groupsThere, Grouping.records_text o.best⟩
    log := ⟨_, Tree.read_of_file logLocated logThere, Trial.records_table o.log.toList⟩ }

/-- The steps of a run that answers: it makes its directory, finds its outcome, and writes all its
files. -/
theorem perform_ok {cfg : Configuration} {base out : Path} {archive : Bool} {t t' : Tree}
    {o : Outcome} (h : perform storage cfg base out archive t = .ok o t') :
    ∃ t₁ files, storage.ensureDirectory out t = .ok () t₁ ∧
      discover storage cfg base t₁ = .ok o t₁ ∧
      o.artifacts out archive = .ok files ∧ publish storage out files t₁ = .ok () t' := by
  rw [perform_eq] at h
  obtain ⟨u, t₁, made, h⟩ := Effect.bind_ok_iff.mp h
  obtain ⟨o', t₂, found, h⟩ := Effect.bind_ok_iff.mp h
  have unchanged : t₂ = t₁ := Effect.ReadOnly.world_eq (discover_readOnly cfg base) found
  rw [unchanged] at found h
  obtain ⟨files, t₃, listing, h⟩ := Effect.bind_ok_iff.mp h
  obtain ⟨listed, rfl⟩ := Effect.lift_ok_iff.mp listing
  obtain ⟨v, t₄, published, h⟩ := Effect.bind_ok_iff.mp h
  cases h
  exact ⟨t₁, files, made, found, listed, published⟩

/-- **The answer of a run, its search and its files agree.** -/
theorem perform_agrees {cfg : Configuration} {base out : Path} {archive : Bool} {t t' : Tree}
    {o : Outcome} (h : perform storage cfg base out archive t = .ok o t') :
    ∃ t₁ data s, storage.ensureDirectory out t = .ok () t₁ ∧ Finds cfg base t₁ o data s ∧
      Agrees o out archive data s t' := by
  obtain ⟨t₁, files, made, found, listed, published⟩ := perform_ok h
  obtain ⟨data, s, finds⟩ := discover_finds found
  exact ⟨t₁, data, s, made, finds, finds.agrees listed published⟩

/-! ### A key that is no text -/

/-- A schedule of one level with three trials, of which the first and the last are logged, and a
parameter under a key that is no text. -/
def keyedEntries : Entries :=
  [(.ofString "groups", .list [.list [.int 0], .list [.int 1]]),
    (.ofString "params", .dict [(.int 1, .int 2), (.ofString "initial_temperature", .int (-1)),
      (.ofString "cooling_factor", .int 2), (.ofString "minimum_temperature", .float (-1.5)),
      (.ofString "swaps_per_temperature", .int 3), (.ofString "log_period", .int 3)])]

/-- The configuration with these entries. -/
def keyed : Configuration := .plain (.dict keyedEntries)

/-- What the search with this configuration finds. -/
def keyedOutcome : Except Fault Outcome := do
  Outcome.search 0 (versionOf keyedEntries) (← optionsOf keyedEntries #[]) #[]
    (.ofNat 0) ⟨[[0], [1]], .parity 2⟩

/-- A run with this configuration answers, and its parameters have a key that is no text. -/
theorem keyed_answers :
    ∃ o t', perform storage keyed .root results false .empty = .ok o t' ∧ o.log.size = 2 ∧
    ∃ e ∈ o.options.toEntries, e.1.kind = .int := by
  have checked :
    keyedOutcome.toOption.any (fun o => (o.summaryFile none).fault.isNone && o.log.size == 2 &&
      o.options.extras.any fun e => e.1.kind == .int) = true := by
    decide +kernel
  obtain ⟨o, answer, checked⟩ := ok_of_checked checked
  simp only [Bool.and_eq_true, Option.isNone_iff_eq_none, beq_iff_eq, List.any_eq_true] at checked
  obtain ⟨⟨whole, logged⟩, e, he, kind⟩ := checked
  obtain ⟨options, read, searched⟩ := except_bind_ok_iff.mp answer
  have found : discover storage keyed .root withResults = .ok o withResults :=
    discover_singles rfl (by with_unfolding_all rfl) (by with_unfolding_all rfl)
      (by with_unfolding_all rfl)
      read searched .root withResults
  have noArchive : o.archiveFiles false = .ok [] := rfl
  rcases perform_of_found results_made results_writable found noArchive
    with ⟨t', ends, -⟩ | ⟨f, t', -, cut, -⟩
  · exact ⟨o, t', ends, logged, e, List.mem_append_right _ he, kind⟩
  · have noPath : Outcome.archivePath results false = none := rfl
    rw [noPath, whole] at cut
    cases cut

theorem keyed_agrees : ∃ o t', perform storage keyed .root results false .empty = .ok o t' ∧
    ∃ t₁ data s, storage.ensureDirectory results .empty = .ok () t₁ ∧
      Finds keyed .root t₁ o data s ∧
      Agrees o results false data s t' := by
  obtain ⟨o, t', answer, -⟩ := keyed_answers
  exact ⟨o, t', answer, perform_agrees answer⟩

/-- The parameters in the summary of this run are not those of its answer: the key has become a
text. -/
theorem keyed_params_differ :
    ∃ o t' summary params, perform storage keyed .root results false .empty = .ok o t' ∧
    Configuration.load storage (results.join (Text.ofString "metrics.json")) t' =
      .ok (.plain (.dict summary)) t' ∧
    Entries.field? summary "params" = some params ∧ params ≠ .dict o.options.toEntries := by
  obtain ⟨o, t', answer, -, e, he, number⟩ := keyed_answers
  obtain ⟨t₁, files, -, -, listed, published⟩ := perform_ok answer
  have key : e.1.kind ≠ .text := by
    rw [number]
    exact nofun
  have params :
    (o.returnedFields (Outcome.archivePath results false)).lookup (Text.ofString "params") =
      some (Json.returned (.dict o.options.toEntries) o.knots) := rfl
  have given := Entries.get?_ofFields params []
  rw [List.append_nil] at given
  exact ⟨o, t', _, _, answer, load_summary listed published, given, Json.image_ne_of_key _ he key⟩

end Run

end Annealing
