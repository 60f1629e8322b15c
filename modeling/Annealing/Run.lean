import Annealing.Configuration
import Annealing.Dataset
import Annealing.Grouping.Strategy
import Annealing.Report.Groups
import Annealing.Report.Summary

/-!
# Run — a search from configuration to artifacts

A run reads a configuration and the dataset that it names, searches for a good grouping, and puts
what it found into files of one directory: a summary, the grouping, the log, and on demand an
archive with the log as arrays.

* `Outcome.search` is the search, and an `Outcome` all that the run found.
* `Outcome.artifacts` are the files in the order in which they are written.  The text of the summary
  may be cut off by a value that cannot be written; then the run ends with this file.
* `Run.perform` is the whole run, and `Run.performFile` one whose configuration is in a file.
-/

namespace Annealing

/-- What a run found. -/
structure Outcome where
  seed : Int
  version : Value
  options : Options
  /-- The collections that knots in version and options stand for. -/
  knots : Knots
  best : Grouping Int
  bestCost : Float
  initialCost : Float
  levels : Nat
  log : Array Trial

/-- A file to be written, and why the run ends with it if it does. -/
structure Artifact where
  name : String
  content : Content
  fault : Option Fault

namespace Outcome

/-- What comes of the search in a dataset. -/
def search (seed : Int) (version : Value) (options : Options) (knots : Knots)
    (generator : Generator) (data : Dataset) : Except Fault Outcome := do
  let cost := Grouping.cost data.preferences
  let initialCost ← cost data.groups
  let search := Grouping.search data.preferences options true
  let (found, after) := (search.run data.groups).outcome { world := generator, log := #[] }
  let best := (← found).best
  let bestCost ← cost best
  let levels ← options.schedule.length
  return { seed, version, options, knots, best, bestCost, initialCost, levels, log := after.log }

/-- What the summary tells besides the parameters; `archive` is the path of the archive if there is
one. -/
def particulars (o : Outcome) (archive : Option Path) : Entries :=
  [(.ofString "seed", .int o.seed),
   (.ofString "config_version", o.version),
   (.ofString "initial_cost", .float o.initialCost),
   (.ofString "temperature_levels", .int o.levels)]
    ++ (archive.map fun p => (Value.ofString "trace", Value.text p.text)).toList

/-- The rows of the log. -/
def rows (o : Outcome) : List Row :=
  o.log.toList.map Trial.row

/-- The lengths of the best grouping along its axes. -/
def bestShape (o : Outcome) : List Nat :=
  o.best.length :: (o.best.head?.map List.length).toList

/-- The arrays of the archive. -/
def arrays (o : Outcome) : Except Fault (List Series) := do
  let best ← o.best.members.mapM fun m => Value.toWord (.int m)
  return (← Series.ofRows o.rows) ++
    [{ name := "best_groups", shape := o.bestShape, cells := .words best }]

/-- The file with the archive. -/
def archiveFile (o : Outcome) : Except Fault Artifact := do
  return { name := "trace.npz", content := .archive (← o.arrays), fault := none }

/-- The file with the summary. -/
def summaryFile (o : Outcome) (archive : Option Path) : Artifact :=
  let draft := Report.summaryText o.bestCost o.log.size (.dict o.options.toEntries)
    (o.particulars archive) o.knots
  { name := "metrics.json", content := .text draft.written, fault := draft.fault }

/-- The file with the best grouping. -/
def groupsFile (o : Outcome) : Artifact :=
  { name := "groups.csv", content := .text (Grouping.text o.best), fault := none }

/-- The file with the log. -/
def logFile (o : Outcome) : Artifact :=
  { name := "metrics_log.csv", content := .text (Trial.table o.log.toList), fault := none }

/-- The path of the archive in a directory, if one is asked for. -/
def archivePath (out : Path) (archive : Bool) : Option Path :=
  if archive then some (out.join (Text.ofString "trace.npz")) else none

/-- The files of a run in the order in which they are written. -/
def artifacts (o : Outcome) (out : Path) (archive : Bool) : Except Fault (List Artifact) := do
  let first ← if archive then (o.archiveFile).map fun a => [a] else pure []
  return first ++ [o.summaryFile (archivePath out archive), o.groupsFile, o.logFile]

end Outcome

namespace Run

/-- The seed of a configuration. -/
def seedOf (cfg : Entries) : Except Fault Int :=
  (((cfg.field? "seed").getD .null).orElse (.int 0)).toInt

/-- The options of a configuration. -/
def optionsOf (cfg : Entries) (knots : Knots) : Except Fault Options :=
  Options.ofValue (knots.untie (((cfg.field? "params").getD (.dict [])).orElse (.dict [])))

/-- The version of a configuration. -/
def versionOf (cfg : Entries) : Value :=
  (cfg.field? "version").getD (.ofString "dev")

variable {m : Type → Type} [Monad m] [MonadExceptOf Fault m] (S : Storage m)

/-- Writes files into a directory up to the first that ends the run. -/
def publish (out : Path) : List Artifact → m Unit
  | [] => pure ()
  | a :: rest => do
      S.write (out.join (Text.ofString a.name)) a.content
      match a.fault with
      | some f => throw f
      | none => publish out rest

/-- A run with a configuration.  Tables are looked for from `base` on, and `out` is the directory of
the files. -/
def perform (cfg : Configuration) (base out : Path) (archive : Bool) : m Outcome := do
  S.ensureDirectory out
  let entries ← MonadExcept.ofExcept (cfg.entries)
  let seed ← MonadExcept.ofExcept (seedOf entries)
  let generator ← MonadExcept.ofExcept (Generator.ofSeed seed)
  let data ← Dataset.load S cfg base
  let options ← MonadExcept.ofExcept (optionsOf entries cfg.knots)
  let outcome ← MonadExcept.ofExcept
    (Outcome.search seed (versionOf entries) options cfg.knots generator data)
  publish S out (← MonadExcept.ofExcept (outcome.artifacts out archive))
  return outcome

/-- A run with the configuration in a file; a seed that is given replaces its seed. -/
def performFile (config out : Path) (seed : Option Value) (archive : Bool) : m Outcome := do
  let config ← MonadExcept.ofExcept config.resolve
  let cfg ← Configuration.load S config
  let cfg ← match seed with
    | none => pure cfg
    | some seed => MonadExcept.ofExcept (cfg.withSeed seed)
  perform S cfg config.parent out archive

end Run

end Annealing
