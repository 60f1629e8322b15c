import Annealing.Value.Convert
import Annealing.Value.Entries

/-!
# Options — the parameters of a search

A search has five parameters.  Each may be given under its name in a dictionary of options; one that
is missing or null takes its default.  The other entries of the dictionary go along untouched, so
that whoever gave them finds them in the report of the run.

* `Options.ofValue` reads options from a value; one that counts as false stands for no options.
* `Options.toEntries` lists the parameters under their names, then the other entries.
-/

namespace Annealing

/-- The parameters of a search, and what else came with them. -/
structure Options where
  initialTemperature : Float
  coolingFactor : Float
  minimumTemperature : Float
  swapsPerTemperature : Int
  logPeriod : Int
  extras : Entries

namespace Options

/-- The names of the parameters. -/
def names : List String :=
  ["initial_temperature", "cooling_factor", "minimum_temperature", "swaps_per_temperature",
    "log_period"]

/-- Whether a key is the name of a parameter. -/
def isName (key : Value) : Bool :=
  names.any fun name => (Value.ofString name).same key

/-- The value under a name, `default` if it is missing or null. -/
def given (entries : Entries) (name : String) (default : Value) : Value :=
  match entries.field? name with
  | none | some .null => default
  | some v => v

/-- Whether a value is null. -/
def isNull : Value → Bool
  | .null => true
  | _ => false

/-- The entries that are no parameters, those with a null left out. -/
def others (entries : Entries) : Entries :=
  entries.filter fun e => !isName e.1 && !isNull e.2

/-- Options from the entries of a dictionary. -/
def ofEntries (entries : Entries) : Except Fault Options := do
  let initialTemperature ← (given entries "initial_temperature" (.float 1.0)).toReal
  let coolingFactor ← (given entries "cooling_factor" (.float 0.99)).toReal
  let minimumTemperature ← (given entries "minimum_temperature" (.float 1e-5)).toReal
  let swapsPerTemperature ← (given entries "swaps_per_temperature" (.int 10)).toInt
  let logPeriod ← (given entries "log_period" (.int 1)).toInt
  return { initialTemperature, coolingFactor, minimumTemperature, swapsPerTemperature, logPeriod,
           extras := others entries }

/-- Options from a value; one that counts as false holds none. -/
def ofValue (given : Value) : Except Fault Options := do
  if given.truthy then ofEntries (← given.entriesFor "items") else ofEntries []

/-- The parameters under their names, then the other entries. -/
def toEntries (o : Options) : Entries :=
  [(.ofString "initial_temperature", .float o.initialTemperature),
   (.ofString "cooling_factor", .float o.coolingFactor),
   (.ofString "minimum_temperature", .float o.minimumTemperature),
   (.ofString "swaps_per_temperature", .int o.swapsPerTemperature),
   (.ofString "log_period", .int o.logPeriod)] ++ o.extras

end Options

end Annealing
