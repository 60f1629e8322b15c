import Annealing.CommandLine.Arguments
import Annealing.Run

/-!
# CommandLine — the program

The program makes one run and tells on its output what came of it.  Asked for help it explains its
options; told something that it does not understand it says so with a short usage, and ends with
status 2.

* `Program.run` is the program in a storage, from a working directory.
-/

namespace Annealing

/-- What the program leaves: its status, and the texts on its two outputs. -/
structure Ending where
  status : Nat
  output : String
  complaint : String
deriving DecidableEq, Repr

namespace Program

/-- The name of the program. -/
def name : String := "sa-engine"

/-- What the program is for. -/
def purpose : String := "Simulated annealing grouping solver"

/-- A text with blanks behind it, up to a length. -/
def padded (length : Nat) (s : String) : String := s.pushn ' ' (length - s.length)

/-- An option with the name of its value. -/
def withValue (option : String) (s : Switch) : String :=
  option ++ (s.valueName?.map (" " ++ ·)).getD ""

/-- An option in the usage: in brackets unless it must be given. -/
def usageItem : Switch → String
  | .help => "[-h]"
  | s => if s.isRequired then withValue s.long s else "[" ++ withValue s.long s ++ "]"

/-- The usage, a line. -/
def usage : String :=
  "usage: " ++ name ++ " " ++ String.intercalate " " (Switch.all.map usageItem) ++ "\n"

/-- An option in the list of options. -/
def listed : Switch → String
  | .help => "-h, --help"
  | s => withValue s.long s

/-- A line of the list of options. -/
def helpLine (s : Switch) : String :=
  "  " ++ padded 17 (listed s) ++ s.purpose ++ "\n"

/-- The help. -/
def help : String :=
  usage ++ "\n" ++ purpose ++ "\n\noptions:\n" ++ String.join (Switch.all.map helpLine)

/-- The text of a complaint about arguments. -/
def complaint (problem : UsageProblem) : String :=
  usage ++ name ++ ": error: " ++ problem.message ++ "\n"

/-- What the program tells about a run. -/
def report (o : Outcome) : Value :=
  .dict [
    (.ofString "initial_cost", .float o.initialCost),
    (.ofString "best_cost", .float o.bestCost),
    (.ofString "groups", .list (o.best.map fun group => .list (group.map .int))),
    (.ofString "trials_logged", .int o.log.size)]

/-- The output of a run. -/
def output (o : Outcome) : String :=
  "\n[DONE]\n" ++ String.ofList (Json.render (report o) #[]).written ++ "\n"

variable {m : Type → Type} [Monad m] [MonadExceptOf Fault m] (S : Storage m)

/-- The path that the value of an option leads to from a directory.  An option without a value
stands for an empty list, which is none. -/
def pathFrom (directory : Path) : Option String → Except Fault Path
  | some s => (directory.join (Text.ofString s)).resolve
  | none => .error (.notPath .list)

/-- Makes the run that is asked for. -/
def execute (directory : Path) (c : Command) : m Outcome := do
  let out ← MonadExcept.ofExcept (pathFrom directory c.outdir)
  let config ← MonadExcept.ofExcept (pathFrom directory c.config)
  Run.performFile S config out (c.seed.map fun n => (n.map Value.int).getD (.list [])) c.trace

/-- The program. -/
def run (directory : Path) (arguments : List String) : m Ending := do
  match Command.ofArguments arguments with
  | .error .help => return ⟨0, help, ""⟩
  | .error (.usage problem) => return ⟨2, "", complaint problem⟩
  | .ok c => return ⟨0, output (← execute S directory c), ""⟩

end Program

end Annealing
