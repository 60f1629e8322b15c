import Annealing.Storage.Basic

/-!
# Storage — the disk

The storage that the disk makes.  What the operating system refuses for one of the reasons in
`FileProblem` fails with a `Fault`; every other refusal stays an error of the operating system.
-/

namespace Annealing.Disk

/-- Effects on the disk. -/
abbrev Effect := ExceptT Fault IO

/-- Whether a code, which may come negated, is that of an error. -/
def isCode (error code : UInt32) : Bool :=
  code == error || code == 0 - error

/-- The problem that an error of the operating system tells of. -/
def problem? : IO.Error → Option FileProblem
  | .noFileOrDirectory .. => some .missing
  | .alreadyExists .. => some .exists
  | .inappropriateType _ code _ => some (if isCode 20 code then .notDirectory else .isDirectory)
  | .invalidArgument _ code _ => if isCode 36 code then some .nameTooLong else none
  | _ => none

/-- An action on a path. -/
def acting {α : Type} (p : Path) (action : String → IO α) : Effect α :=
  ExceptT.mk do
    if let some f := Path.refusal? p.text then return .error f
    try
      return .ok (← action (String.ofList p.text.chars))
    catch e =>
      match problem? e with
      | some problem => return .error (.file problem p.text)
      | none => throw e

/-- The octets of the file at a path. -/
def read (p : Path) : Effect (List UInt8) :=
  acting p fun path => do return (← IO.FS.readBinFile path).toList

/-- Whether a directory is at a path: nothing else refuses to be read as one. -/
def isDirectory (p : Path) : Effect Bool := do
  try
    let _ ← read p
    return false
  catch
    | .file .isDirectory _ => return true
    | .file .nameTooLong path => throw (.file .nameTooLong path)
    | _ => return false

/-- Whether something is at a path. -/
def contains (p : Path) : Effect Bool := do
  try
    let _ ← read p
    return true
  catch
    | .file .isDirectory _ => return true
    | .file .nameTooLong path => throw (.file .nameTooLong path)
    | _ => return false

/-- The storage that the disk makes. -/
def storage : Storage Effect where
  contains := contains
  isDirectory := isDirectory
  read := read
  write p content := acting p fun path => IO.FS.writeBinFile path ⟨content.stored.toArray⟩
  makeDirectory p := acting p fun path => IO.FS.createDir path

end Annealing.Disk
