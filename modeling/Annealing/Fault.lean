import Annealing.Packed.Problem
import Annealing.Value.Basic

/-!
# Fault — why an operation has no answer

Every operation of the library that may fail says why with a `Fault`.  A fault names a cause and
carries what its message shows; the wording is in `Annealing.Fault.Message`.  The causes stand in
the order of the subjects: conversions, arithmetic, groupings and preferences, tables, packed data,
documents, configurations, files, artifacts, and functions that the caller supplied.
-/

namespace Annealing

/-- Operations on two values that not all kinds have. -/
inductive Operator where
  | add | subtract | scale | divide
deriving DecidableEq, Repr

/-- What is wrong at a place of a JSON document. -/
inductive JsonProblem where
  | byteOrderMark
  | value
  | propertyName
  | colon
  | comma
  | extraData
  | unterminated
  | badEscape
  | badUnicodeEscape
  | controlCharacter
deriving DecidableEq, Repr

/-- What is wrong with a byte sequence read as UTF-8. -/
inductive Utf8Problem where
  | badStart
  | badContinuation
  | unexpectedEnd
deriving DecidableEq, Repr

/-- What the file system answers instead of doing as told. -/
inductive FileProblem where
  | missing
  | exists
  | notDirectory
  | isDirectory
  | nameTooLong
deriving DecidableEq, Repr

/-- What the cells of an array hold. -/
inductive CellKind where
  | truth | integer | double
deriving DecidableEq, Repr

/-- The octets of a cell. -/
def CellKind.octets : CellKind → Nat
  | .truth => 1
  | .integer | .double => 8

/-- The functions that a strategy supplies. -/
inductive Role where
  | copy | neighbor | cost
deriving DecidableEq, Repr

/-- Why an operation has no answer. -/
inductive Fault where
  -- Conversions
  | notInteger (kind : Kind)
  | notReal (kind : Kind)
  | malformedInteger (base : Nat) (shown : Value)
  | malformedReal (shown : Value)
  | tooManyDigits (count : Nat)
  | nanToInteger
  | infinityToInteger
  | tooLargeForReal
  | tooLargeForWord
  -- Arithmetic
  | unordered (relation : Relation) (left right : Kind)
  | unsupported (op : Operator) (left right : Kind)
  | repeatByReal
  | joinWithInteger (kind : Kind)
  | divisionByZero (reals : Bool)
  | quotientTooLarge
  | outsideDomain
  | coolingOutsideRange
  | endless
  -- Groupings and preferences
  | notIterable (kind : Kind)
  | memberOutside (size : Nat) (group : List Value)
  | indexOutside (index axis size : Nat)
  | scalarGroup
  | ambiguousTruth
  | emptyTruth
  | notScalar
  | ragged (shape : List Nat)
  | tooManyAxes
  | negativeMember
  | repeatedMember
  | unevenSizes (sizes : List Nat)
  | notSquare
  | notCovering
  | notFinite
  | notNumeric
  | tooManyCells
  | tooManyRows
  | tooManyBytes
  | outOfMemory (shape : List Nat) (cells : CellKind) (octets : Nat)
  | lengthUndefined
  | negativeSeed
  -- Tables
  | unreadableFormat
  | noColumns
  | malformedTable
  | emptyTable (path : Text)
  | lacksGroupColumns
  | lacksPreferenceColumns
  | missingMember
  | negativePreferenceMember
  -- Packed data
  | packed (problem : PackProblem)
  | noFile (kind : ArchiveKind) (archive : Text)
  | severalFiles (kind : ArchiveKind) (names : List Text)
  -- Documents
  | json (problem : JsonProblem) (line column offset : Nat)
  | yaml
  | unknownWord (word : Text)
  | noSuchCharacter (code : Nat)
  | emptyNumeral
  | badDate (problem : String)
  | utf8 (problem : Utf8Problem) (octet : UInt8) (first last : Nat)
  | tooDeep
  -- Configurations
  | lacksOperation (kind : Kind) (name : String)
  | unhashable (kind : Kind)
  | notText (kind : Kind)
  | pairExpected (index : Nat)
  | pairLength (index length : Nat)
  | noGroups
  | badPath (kind : Kind)
  | notPath (kind : Kind)
  -- Files
  | absent (path : Text)
  | file (problem : FileProblem) (path : Text)
  | nullInPath
  /-- Halves of surrogate pairs, which UTF-8 cannot spell, and the first of them. -/
  | halves (code first last : Nat)
  -- Artifacts
  | notWritable (kind : Kind)
  | circular
  | tooLongToWrite
  | badKey (kind : Kind)
  | unknownColumn
  -- Supplied functions
  | refused (role : Role) (call : Nat)

end Annealing
