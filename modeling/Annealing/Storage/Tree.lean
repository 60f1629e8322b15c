import Annealing.Effect
import Annealing.Storage.Basic

/-!
# Storage — a file system in memory

A tree says what is at every place.  A place is a path without `..`; the root is always a directory.
A path leads to a place if every name but the last is that of a directory in the one before it.

* `Tree.locate` follows a path to its place.
* `Tree.storage` is the storage that a tree makes.
-/

namespace Annealing

/-- What is at a place. -/
inductive Entry where
  | directory
  | file (content : Content)

/-- What is at every place below the root. -/
structure Tree where
  entries : List (List Text × Entry)

namespace Tree

/-- The tree with nothing but the root. -/
def empty : Tree := ⟨[]⟩

/-- What is at a place. -/
def get? (t : Tree) (place : List Text) : Option Entry :=
  if place.isEmpty then some .directory else (t.entries.find? fun e => e.1 == place).map (·.2)

/-- Puts an entry at a place. -/
def insertEntry (place : List Text) (entry : Entry) :
    List (List Text × Entry) → List (List Text × Entry)
  | [] => [(place, entry)]
  | e :: rest => if e.1 == place then (place, entry) :: rest else e :: insertEntry place entry rest

/-- The tree with an entry at a place. -/
def insert (t : Tree) (place : List Text) (entry : Entry) : Tree :=
  ⟨insertEntry place entry t.entries⟩

/-- The greatest number of octets of a name. -/
def nameLimit : Nat := 255

/-- The greatest number of octets of the text of a path. -/
def pathLimit : Nat := 4095

/-- The number of octets of a name.  A half of a surrogate pair that is a name at all stands for
one. -/
def octetCount (name : Text) : Nat :=
  name.foldl (fun n s => n + match s with | .char c => c.utf8Size | .half _ => 1) 0

/-- Follows names from the place `at`, given from its last name to its first. -/
def follow (t : Tree) : (place : List Text) → List Text → Except FileProblem (List Text)
  | place, [] => .ok place.reverse
  | place, name :: rest =>
      match t.get? place.reverse with
      | none => .error .missing
      | some (.file _) => .error .notDirectory
      | some .directory =>
          if nameLimit < octetCount name then .error .nameTooLong
          else t.follow (Path.stepInto place name) rest

/-- The place of a path.  Nothing need be there. -/
def locate (t : Tree) (p : Path) : Except Fault (List Text) :=
  match Path.refusal? p.text with
  | some f => .error f
  | none =>
    let found := if pathLimit < octetCount p.text then .error .nameTooLong else t.follow [] p.names
    found.mapError fun problem => .file problem p.text

/-- What is at a path, none if nothing can be there. -/
def at? (t : Tree) (p : Path) : Except Fault (Option Entry) :=
  match t.locate p with
  | .ok place => .ok (t.get? place)
  | .error (.file .nameTooLong path) => .error (.file .nameTooLong path)
  | .error _ => .ok none

/-- The octets of the file at a path. -/
def read (t : Tree) (p : Path) : Except Fault (List UInt8) := do
  match t.get? (← t.locate p) with
  | some (.file content) => return content.stored
  | some .directory => throw (.file .isDirectory p.text)
  | none => throw (.file .missing p.text)

/-- The tree with a file at a path, in a directory that is there. -/
def write (t : Tree) (p : Path) (content : Content) : Except Fault Tree := do
  let place ← t.locate p
  match t.get? place with
  | some .directory => throw (.file .isDirectory p.text)
  | _ => return t.insert place (.file content)

/-- The tree with a directory at a path. -/
def makeDirectory (t : Tree) (p : Path) : Except Fault Tree := do
  let place ← t.locate p
  match t.get? place with
  | some _ => throw (.file .exists p.text)
  | none => return t.insert place .directory

/-- An effect that asks a tree. -/
def asking {α : Type} (ask : Tree → Except Fault α) : Effect Tree α := do
  Effect.ofExcept (ask (← get))

/-- An effect that changes a tree. -/
def changing (change : Tree → Except Fault Tree) : Effect Tree Unit := do
  set (← Effect.ofExcept (change (← get)))

/-- The storage that a tree makes. -/
def storage : Storage (Effect Tree) where
  contains p := asking fun t => (t.at? p).map Option.isSome
  isDirectory p := asking fun t => (t.at? p).map fun
    | some .directory => true
    | _ => false
  read p := asking fun t => t.read p
  write p content := changing fun t => t.write p content
  makeDirectory p := changing fun t => t.makeDirectory p

end Tree

end Annealing
