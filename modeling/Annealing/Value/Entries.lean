import Annealing.Fault
import Annealing.Value.Compare

/-!
# Value — dictionaries

The entries of a dictionary stand in the order in which their keys first came.  `Entries.insert` is
the one way a dictionary grows: a key that is already there keeps its place and takes the new value,
a new key goes to the end.  Keys are told apart by `Value.same`, so `1` and `1.0` are one key.
-/

namespace Annealing

/-- The entries of a dictionary. -/
abbrev Entries := List (Value × Value)

namespace Entries

/-- The value under a key. -/
def get? (entries : Entries) (key : Value) : Option Value :=
  (entries.find? fun e => e.1.same key).map (·.2)

/-- Puts a value under a key: in the key's place if it has one, at the end otherwise. -/
def insert : Entries → Value → Value → Entries
  | [], key, v => [(key, v)]
  | (k, w) :: rest, key, v => if k.same key then (k, v) :: rest else (k, w) :: insert rest key v

/-- Puts every entry of `more` in turn. -/
def update (entries more : Entries) : Entries :=
  more.foldl (fun acc e => insert acc e.1 e.2) entries

/-- The value under a text key. -/
def field? (entries : Entries) (name : String) : Option Value :=
  get? entries (.ofString name)

/-- Puts a value under a text key. -/
def setField (entries : Entries) (name : String) (v : Value) : Entries :=
  insert entries (.ofString name) v

end Entries

namespace Value

/-- The entries of a value that has the operation `name`; only dictionaries have any. -/
def entriesFor (name : String) : Value → Except Fault Entries
  | .dict entries => .ok entries
  | v => .error (.lacksOperation v.kind name)

/-- Whether a value may be a key. -/
def isKey (v : Value) : Bool :=
  !([.list, .set, .dict] : List Kind).contains v.kind

end Value

end Annealing
