import Annealing.Storage.Content
import Annealing.Storage.Path

/-!
# Storage — what the library asks of a file system

The library reads and writes files through a `Storage`: five functions in a monad that can fail with
a `Fault`.  One storage is a tree in memory (`Annealing.Storage.Tree`), another the disk.

* `Storage.ensureDirectory` makes a directory and those around it as far as they are missing.
-/

namespace Annealing

/-- Access to files and directories. -/
structure Storage (m : Type → Type) where
  /-- Whether something is at a path. -/
  contains : Path → m Bool
  /-- Whether a directory is at a path. -/
  isDirectory : Path → m Bool
  /-- The octets of the file at a path. -/
  read : Path → m (List UInt8)
  /-- Makes or replaces the file at a path. -/
  write : Path → Content → m Unit
  /-- Makes a directory in one that is there. -/
  makeDirectory : Path → m Unit

namespace Storage

variable {m : Type → Type} [Monad m] [MonadExceptOf Fault m] (S : Storage m)

/-- Makes a directory; fails as the storage does unless there is one already. -/
def keepDirectory (p : Path) : m Unit :=
  tryCatchThe Fault (S.makeDirectory p) fun f => do
    if !(← S.isDirectory p) then throw f

/-- Makes a directory whose names stand from the last to the first, and those around it if one is
missing. -/
def ensureNames (twoSlashes : Bool) : List Text → m Unit
  | [] => S.keepDirectory ⟨[], twoSlashes⟩
  | name :: around =>
      let p : Path := ⟨(name :: around).reverse, twoSlashes⟩
      tryCatchThe Fault (S.makeDirectory p) fun f =>
        match f with
        | .file .missing _ => do
            ensureNames twoSlashes around
            S.keepDirectory p
        | f => do if !(← S.isDirectory p) then throw f

/-- Makes a directory and those around it, unless they are there. -/
def ensureDirectory (p : Path) : m Unit :=
  S.ensureNames p.twoSlashes p.names.reverse

end Storage

end Annealing
