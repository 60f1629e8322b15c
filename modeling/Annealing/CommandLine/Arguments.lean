import Annealing.Fault.Message
import Annealing.Text.Digit
import Annealing.Value.Convert

/-!
# CommandLine — arguments

The program is told what to do by options: the configuration, the directory for the files, and
optionally a seed and whether to keep an archive.  An option may be shortened as long as it stays
the only one that starts so.  Its value follows in the next argument, or in the same one behind an
equals sign.  The last of several values counts.  Two dashes behind an equals sign are no value, and
yet the option counts as given.

Arguments are first sorted into options and values (`Piece.ofArguments`), then taken one after
another (`Command.ofPieces`).  Asking for help ends this at once; so does the first thing that is
wrong.

* `Command.ofArguments` is what arguments ask for, or why nothing is to be done.
-/

namespace Annealing

/-- The options of the program. -/
inductive Switch where
  | help | config | outdir | seed | trace
deriving DecidableEq, Repr

namespace Switch

/-- All options. -/
def all : List Switch := [.help, .config, .outdir, .seed, .trace]

/-- The long form of an option. -/
def long : Switch → String
  | .help => "--help"
  | .config => "--config"
  | .outdir => "--outdir"
  | .seed => "--seed"
  | .trace => "--trace"

/-- An option as messages call it. -/
def label : Switch → String
  | .help => "-h/--help"
  | s => s.long

/-- The name of the value of an option, if it has one. -/
def valueName? : Switch → Option String
  | .config => some "CONFIG"
  | .outdir => some "OUTDIR"
  | .seed => some "SEED"
  | _ => none

/-- Whether an option must be given. -/
def isRequired : Switch → Bool
  | .config | .outdir => true
  | _ => false

/-- What an option is for. -/
def purpose : Switch → String
  | .help => "show this help message and exit"
  | .config => "Path to YAML/JSON configuration"
  | .outdir => "Output directory"
  | .seed => "Optional RNG seed override"
  | .trace => "Export compact trace.npz alongside metrics"

end Switch

/-- What is wrong with arguments. -/
inductive UsageProblem where
  | ambiguous (argument : String) (candidates : List Switch)
  | lacksValue (s : Switch)
  | superfluousValue (s : Switch) (value : String)
  | notInteger (s : Switch) (value : String)
  | missing (all : List Switch)
  | unrecognized (arguments : List String)
deriving DecidableEq, Repr

/-- The wording of a problem. -/
def UsageProblem.message : UsageProblem → String
  | .ambiguous argument candidates =>
      "ambiguous option: " ++ argument ++ " could match " ++ String.intercalate ", "
        (candidates.map Switch.long)
  | .lacksValue s => "argument " ++ s.label ++ ": expected one argument"
  | .superfluousValue s value =>
      "argument " ++ s.label ++ ": ignored explicit argument " ++ nameText (Text.ofString value)
  | .notInteger s value =>
      "argument " ++ s.label ++ ": invalid int value: " ++ nameText (Text.ofString value)
  | .missing all =>
      "the following arguments are required: " ++ String.intercalate ", " (all.map Switch.label)
  | .unrecognized arguments => "unrecognized arguments: " ++ String.intercalate " " arguments

/-- Why nothing is to be done: help is asked for, or something is wrong. -/
inductive Refusal where
  | help
  | usage (problem : UsageProblem)
deriving DecidableEq, Repr

/-! ### Sorting -/

/-- What an argument is. -/
inductive Piece where
  | value (text : String)
  /-- The two dashes behind which there are only values. -/
  | dashes
  /-- An option that the program does not have. -/
  | unknown (text : String)
  /-- A long option, and the value behind its equals sign if there is one. -/
  | long (s : Switch) (explicit : Option String)
  /-- The short option for help, and what is written together with it. -/
  | short (more : List Char)

namespace Piece

/-- A text before its first equals sign and behind it; none if it has none. -/
def splitEquals (cs : List Char) : Option (List Char × List Char) :=
  if cs.contains '=' then some (cs.takeWhile (· ≠ '='), (cs.dropWhile (· ≠ '=')).drop 1) else none

/-- Whether a text is a negative number. -/
def isNegativeNumber (cs : List Char) : Bool :=
  let cs := if cs.getLast? = some '\n' then cs.dropLast else cs
  let isDigit := fun c => (Text.digitValue? c).isSome
  match cs with
  | '-' :: body =>
      match body.dropWhile isDigit with
      | [] => !body.isEmpty
      | '.' :: fraction => !fraction.isEmpty && fraction.all isDigit
      | _ => false
  | _ => false

/-- An argument that starts with a dash and is no option of the program. -/
def ofStranger (cs : List Char) : Piece :=
  if isNegativeNumber cs || cs.contains ' ' then .value (String.ofList cs)
    else .unknown (String.ofList cs)

/-- An argument that starts with two dashes. -/
def ofLong (cs : List Char) : Except Refusal Piece :=
  let (name, explicit) : List Char × Option (List Char) :=
    match splitEquals cs with
    | some (name, behind) => (name, some behind)
    | none => (cs, none)
  let explicit := explicit.map String.ofList
  match Switch.all.find? fun s => s.long.toList == name with
  | some s => .ok (.long s explicit)
  | none =>
      match Switch.all.filter fun s => name.isPrefixOf s.long.toList with
      | [] => .ok (ofStranger cs)
      | [s] => .ok (.long s explicit)
      | candidates => .error (.usage (.ambiguous (String.ofList cs) candidates))

/-- An argument. -/
def ofArgument (text : String) : Except Refusal Piece :=
  match text.toList with
  | '-' :: '-' :: rest => ofLong ('-' :: '-' :: rest)
  | '-' :: 'h' :: more => .ok (.short more)
  | ['-'] => .ok (.value text)
  | '-' :: rest => .ok (ofStranger ('-' :: rest))
  | _ => .ok (.value text)

/-- All arguments. -/
def ofArguments : List String → Except Refusal (List Piece)
  | [] => .ok []
  | text :: rest =>
      if text = "--" then .ok (.dashes :: rest.map .value)
      else do return (← ofArgument text) :: (← ofArguments rest)

end Piece

/-! ### Taking -/

/-- What the program is asked to do.  An option that was given without a value has none. -/
structure Command where
  config : Option String
  outdir : Option String
  seed : Option (Option Int)
  trace : Bool
deriving DecidableEq, Repr

/-- What has been taken so far. -/
structure Taken where
  config : Option (Option String)
  outdir : Option (Option String)
  seed : Option (Option Int)
  trace : Bool
  /-- Arguments that belong to no option, the last one first. -/
  strangers : List String

namespace Taken

/-- Nothing. -/
def nothing : Taken := ⟨none, none, none, false, []⟩

/-- Puts an argument aside that belongs to no option. -/
def setAside (t : Taken) (text : String) : Taken :=
  { t with strangers := text :: t.strangers }

/-- Takes an option without a value. -/
def take (t : Taken) : Switch → Except Refusal Taken
  | .help => .error .help
  | .trace => .ok { t with trace := true }
  | s => .error (.usage (.lacksValue s))

/-- Takes an option with its value. -/
def takeValue (t : Taken) (s : Switch) (value : String) : Except Refusal Taken :=
  match s with
  | .config => .ok { t with config := some (some value) }
  | .outdir => .ok { t with outdir := some (some value) }
  | .seed =>
      match (Value.ofString value).toInt with
      | .ok n => .ok { t with seed := some (some n) }
      | .error _ => .error (.usage (.notInteger .seed value))
  | s => .error (.usage (.superfluousValue s value))

/-- Takes an option with what stands behind its equals sign. -/
def takeExplicit (t : Taken) (s : Switch) (value : String) : Except Refusal Taken :=
  match s, value with
  | .config, "--" => .ok { t with config := some none }
  | .outdir, "--" => .ok { t with outdir := some none }
  | .seed, "--" => .ok { t with seed := some none }
  | s, value => t.takeValue s value

/-- What comes of the short option for help with its own letter written behind it again and again.
Anything else there is taken for a value, which it does not have. -/
def endedByHelp : List Char → Refusal
  | [] => .help
  | 'h' :: rest => endedByHelp rest
  | rest => .usage (.superfluousValue .help (String.ofList rest))

/-- What comes of the short option for help with something written behind it, or behind an equals
sign. -/
def askedForHelp : List Char → Refusal
  | ['='] => .usage (.superfluousValue .help "")
  | '=' :: value => endedByHelp value
  | more => endedByHelp more

/-- Takes pieces one after another. -/
def all : Taken → List Piece → Except Refusal Taken
  | t, [] => .ok t
  | t, .value text :: rest => all (t.setAside text) rest
  | t, .dashes :: rest => all (t.setAside "--") rest
  | t, .unknown text :: rest => all (t.setAside text) rest
  | _, .short more :: _ => .error (askedForHelp more)
  | t, .long s (some value) :: rest => do all (← t.takeExplicit s value) rest
  | t, [.long s none] => t.take s
  | t, .long s none :: next :: rest =>
      match s.valueName?, next with
      | some _, .value text => do all (← t.takeValue s text) rest
      | _, _ => do all (← t.take s) (next :: rest)

end Taken

namespace Command

/-- The options that must be given and are not. -/
def missing (t : Taken) : List Switch :=
  (if t.config.isNone then [.config] else []) ++ (if t.outdir.isNone then [.outdir] else [])

/-- What arguments ask for. -/
def ofArguments (arguments : List String) : Except Refusal Command := do
  let t ← Taken.all .nothing (← Piece.ofArguments arguments)
  match t.config, t.outdir with
  | some config, some outdir =>
      if !t.strangers.isEmpty then throw (.usage (.unrecognized t.strangers.reverse))
      return { config, outdir, seed := t.seed, trace := t.trace }
  | _, _ => throw (.usage (.missing (missing t)))

end Command

end Annealing
