import Annealing.Document.Json.Reader
import Annealing.Document.Yaml.Reader
import Annealing.Storage.Basic
import Annealing.Text.LineEnd

/-!
# Configuration — reading a configuration

A configuration is the value that a file holds, as JSON if the name of the file says so and as YAML
otherwise.  A file with nothing but blanks holds an empty dictionary, and so does a YAML text whose
value counts as false.  A configuration comes with the collections in it that contain themselves.

* `Configuration.parse` reads the octets of a file, `Configuration.load` the file at a path.
* `Configuration.withSeed` puts another seed into a configuration.
-/

namespace Annealing

/-- A value, and the collections that its knots stand for. -/
structure Configuration where
  value : Value
  knots : Knots
deriving Inhabited

namespace Configuration

/-- A configuration in which nothing contains itself. -/
def plain (v : Value) : Configuration := ⟨v, #[]⟩

/-- The configuration that octets hold. -/
def parse (isJson : Bool) (octets : List UInt8) : Except Fault Configuration := do
  let text := Text.strip Text.isBlank (Text.unifyLineEnds (← Text.Utf8.decode octets))
  if text.isEmpty then return plain (.dict [])
  else if isJson then return plain (← Json.read text)
  else
    let (v, knots) ← Yaml.read text
    return ⟨v.orElse (.dict []), knots⟩

/-- Whether the file at a path is one of JSON. -/
def isJson (p : Path) : Bool := p.suffix == Text.ofString ".json"

/-- The configuration in the file at a path. -/
def load {m : Type → Type} [Monad m] [MonadExceptOf Fault m] (S : Storage m) (p : Path) :
    m Configuration := do
  if !(← S.contains p) then throw (.absent p.text)
  MonadExcept.ofExcept (parse (isJson p) (← S.read p))

/-- The entries of a configuration that is asked for some of them. -/
def entries (cfg : Configuration) : Except Fault Entries :=
  (cfg.knots.untie cfg.value).entriesFor "get"

/-! ### Another seed -/

/-- The entry that a pair makes; `index` is its place in the list of pairs. -/
def pairEntry (index : Nat) (pair : Value) : Except Fault (Value × Value) :=
  match pair.items with
  | .error _ => .error (.pairExpected index)
  | .ok [key, v] => if key.isKey then .ok (key, v) else .error (.unhashable key.kind)
  | .ok items => .error (.pairLength index items.length)

/-- The entries that a configuration makes: its own if it is a dictionary, otherwise those of its
pairs. -/
def allEntries (cfg : Configuration) : Except Fault Entries := do
  match cfg.knots.untie cfg.value with
  | .dict entries => return entries
  | v => do
      let pairs ← (← v.items).zipIdx.mapM fun (pair, index) =>
        pairEntry index (cfg.knots.untie pair)
      return Entries.update [] pairs

/-- The configuration with another seed. -/
def withSeed (cfg : Configuration) (seed : Value) : Except Fault Configuration := do
  let n ← seed.toInt
  return ⟨.dict ((← cfg.allEntries).setField "seed" (.int n)), cfg.knots⟩

end Configuration

end Annealing
