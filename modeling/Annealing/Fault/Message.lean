import Annealing.Fault
import Annealing.Packed.Message
import Annealing.Value.Show

/-!
# Fault — messages

`Fault.message` is the message of every fault.  A value in a message is shown as it stands in a
list, and a malformed integer is cut after 200 characters.  A group that holds an integer of too
many digits cannot be shown, and then the message is about these digits.
-/

namespace Annealing

/-- The sign of an order relation. -/
def Relation.sign : Relation → String
  | .less => "<"
  | .atMost => "<="
  | .greater => ">"
  | .atLeast => ">="

/-- The sign of an operation. -/
def Operator.sign : Operator → String
  | .add => "+"
  | .subtract => "-"
  | .scale => "*="
  | .divide => "/"

/-- What a document should hold, or does hold, at a place. -/
def JsonProblem.text : JsonProblem → String
  | .byteOrderMark => "Unexpected UTF-8 BOM (decode using utf-8-sig)"
  | .value => "Expecting value"
  | .propertyName => "Expecting property name enclosed in double quotes"
  | .colon => "Expecting ':' delimiter"
  | .comma => "Expecting ',' delimiter"
  | .extraData => "Extra data"
  | .unterminated => "Unterminated string starting at"
  | .badEscape => "Invalid \\escape"
  | .badUnicodeEscape => "Invalid \\uXXXX escape"
  | .controlCharacter => "Invalid control character at"

/-- What is wrong with a byte sequence. -/
def Utf8Problem.text : Utf8Problem → String
  | .badStart => "invalid start byte"
  | .badContinuation => "invalid continuation byte"
  | .unexpectedEnd => "unexpected end of data"

/-- Number and wording of a file problem. -/
def FileProblem.text : FileProblem → String
  | .missing => "[Errno 2] No such file or directory"
  | .exists => "[Errno 17] File exists"
  | .notDirectory => "[Errno 20] Not a directory"
  | .isDirectory => "[Errno 21] Is a directory"
  | .nameTooLong => "[Errno 36] File name too long"

/-- The name of a function that a strategy supplies. -/
def Role.name : Role → String
  | .copy => "copy"
  | .neighbor => "neighbor"
  | .cost => "cost"

/-- A value as it stands in a list. -/
def Value.shown (v : Value) : String := String.ofList v.literal

/-- What an archive of a kind is called. -/
def ArchiveKind.noun : ArchiveKind → String
  | .zip => "ZIP file"
  | .tape => "TAR archive"

/-- What an archive of a kind is called for short. -/
def ArchiveKind.shortNoun : ArchiveKind → String
  | .zip => "ZIP"
  | .tape => "TAR archive"

/-- The lengths along the axes of an array: one length alone keeps its comma. -/
def shapeText : List Nat → String
  | [n] => "(" ++ toString n ++ ",)"
  | shape => "(" ++ String.intercalate ", " (shape.map toString) ++ ")"

/-- The name of what the cells of an array hold. -/
def CellKind.name : CellKind → String
  | .truth => "bool"
  | .integer => "int64"
  | .double => "float64"

/-- The units of octets, each 1024 of the one before. -/
def octetUnits : List String := ["bytes", "KiB", "MiB", "GiB", "TiB", "PiB", "EiB"]

/-- A ratio between 1 and 1000 with three digits that count, and a point even behind the last
one. -/
def threeDigits (num den : Nat) : List Char :=
  if Binary64.divNearest (num * 100) den < 1000 then
    let n := Decimal.natural (Binary64.divNearest (num * 100) den)
    n.take 1 ++ '.' :: n.drop 1
  else if Binary64.divNearest (num * 10) den < 1000 then
    let n := Decimal.natural (Binary64.divNearest (num * 10) den)
    n.take 2 ++ '.' :: n.drop 2
  else Decimal.natural (Binary64.divNearest num den) ++ ['.']

/-- A count of octets in the greatest unit that it fills. -/
def octetsText (octets : Nat) : String :=
  let filled := octets.log2 / 10
  let unit :=
    min 6 (if Binary64.divNearest octets (1024 ^ filled) = 1024 then filled + 1 else filled)
  let whole := Binary64.divNearest octets (1024 ^ unit)
  String.ofList (if unit = 0 then Decimal.natural octets
    else if whole < 1000 then threeDigits octets (1024 ^ unit)
    else Decimal.natural whole ++ ['.']) ++ " " ++ octetUnits.getD unit ""

namespace Fault

/-- What is said of an integer of too many digits for a text, also in place of a message that would
hold one. -/
def tooLongWording : String :=
  "Exceeds the limit (4300 digits) for integer string conversion; "
    ++ "use sys.set_int_max_str_digits() to increase the limit"

/-- The wording of a fault, with a replacement for every half of a surrogate pair in a path. -/
def wording : Fault → String
  | .notInteger k =>
      "int() argument must be a string, a bytes-like object or a real number, not '" ++ k.name ++
        "'"
  | .notReal k => "float() argument must be a string or a real number, not '" ++ k.name ++ "'"
  | .malformedInteger base v =>
      "invalid literal for int() with base " ++ toString base ++ ": " ++
        String.ofList (v.literal.take 200)
  | .malformedReal v => "could not convert string to float: " ++ v.shown
  | .tooManyDigits n =>
      "Exceeds the limit (4300 digits) for integer string conversion: value has " ++ toString n
        ++ " digits; use sys.set_int_max_str_digits() to increase the limit"
  | .nanToInteger => "cannot convert float NaN to integer"
  | .infinityToInteger => "cannot convert float infinity to integer"
  | .tooLargeForReal => "int too large to convert to float"
  | .tooLargeForWord => "Python int too large to convert to C long"
  | .unordered r a b =>
      "'" ++ r.sign ++ "' not supported between instances of '" ++ a.name ++
        "' and '" ++ b.name ++ "'"
  | .unsupported op a b =>
      "unsupported operand type(s) for " ++ op.sign ++ ": '" ++ a.name ++ "' and '" ++ b.name ++ "'"
  | .repeatByReal => "can't multiply sequence by non-int of type 'float'"
  | .joinWithInteger .bytes => "can't concat int to bytes"
  | .joinWithInteger k => "can only concatenate " ++ k.name ++ " (not \"int\") to " ++ k.name
  | .divisionByZero reals => if reals then "float division by zero" else "division by zero"
  | .quotientTooLarge => "integer division result too large for a float"
  | .outsideDomain => "math domain error"
  | .coolingOutsideRange => "cooling_factor must lie in (0, 1) for a finite schedule"
  | .endless => "the schedule does not end"
  | .notIterable k => "'" ++ k.name ++ "' object is not iterable"
  | .memberOutside size group =>
      if (Value.list group).isShort then
        "member ids must lie in [0, " ++ toString size ++
          "), got group " ++ (Value.list group).shown
      else tooLongWording
  | .indexOutside index axis size =>
      "index " ++ toString index ++ " is out of bounds for axis " ++ toString axis ++
        " with size " ++ toString size
  | .scalarGroup => "tuple index out of range"
  | .ambiguousTruth =>
      "The truth value of an array with more than one element is ambiguous. Use a.any() or a.all()"
  | .emptyTruth =>
      "The truth value of an empty array is ambiguous. " ++
        "Use `array.size > 0` to check that an array is not empty."
  | .notScalar => "only 0-dimensional arrays can be converted to Python scalars"
  | .tooManyAxes =>
      "setting an array element with a sequence. " ++
        "The requested array would exceed the maximum number of dimension of 64."
  | .ragged shape =>
      "setting an array element with a sequence. " ++
        "The requested array has an inhomogeneous shape after " ++ toString shape.length ++
        " dimensions. The detected shape was " ++ shapeText shape ++ " + inhomogeneous part."
  | .negativeMember => "member ids must be >= 0"
  | .repeatedMember => "member ids must be unique across groups"
  | .unevenSizes sizes =>
      "all groups must have the same size, got sizes [" ++ String.intercalate ", "
        (sizes.map toString) ++ "]"
  | .notSquare => "preferences must be a square matrix"
  | .notCovering => "preferences do not cover every member id"
  | .notFinite => "preferences must be finite"
  | .notNumeric =>
      "ufunc 'isfinite' not supported for the input types, and the inputs could not be " ++
        "safely coerced to any supported types according to the casting rule ''safe''"
  | .tooManyCells => "Maximum allowed size exceeded"
  | .tooManyRows => "Maximum allowed dimension exceeded"
  | .tooManyBytes =>
      "array is too big; `arr.size * arr.dtype.itemsize` is larger than the maximum possible size."
  | .outOfMemory shape cells octets =>
      "Unable to allocate " ++ octetsText octets ++ " for an array with shape " ++
        shapeText shape ++ " and data type "
        ++ cells.name
  | .lengthUndefined => "arange: cannot compute length"
  | .negativeSeed => "expected non-negative integer"
  | .unreadableFormat => "no engine can read this format"
  | .noColumns => "No columns to parse from file"
  | .malformedTable => "the rows of the table do not fit together"
  | .emptyTable path => "empty table: " ++ String.ofList path.chars
  | .lacksGroupColumns => "group table must contain 'group' and 'member' columns"
  | .lacksPreferenceColumns => "preference table must contain 'a', 'b' and 'score' columns"
  | .missingMember =>
      "Cannot convert non-finite values (NA or inf) to integer. Replace or remove " ++
        "non-finite values or cast to an integer type that supports these values (e.g. 'Int64')"
  | .negativePreferenceMember => "preference member ids must be >= 0"
  | .packed problem => problem.wording
  | .noFile kind archive =>
      "Zero files found in " ++ kind.noun ++ " " ++ String.ofList archive.chars
  | .severalFiles kind names =>
      "Multiple files found in " ++ kind.noun ++ ". Only one file per " ++ kind.shortNoun ++ ": "
        ++ (Value.list (names.map Value.text)).shown
  | .json problem line column offset =>
      problem.text ++ ": line " ++ toString line ++ " column " ++ toString column ++
        " (char " ++ toString offset ++ ")"
  | .yaml => "the document is not well-formed"
  | .unknownWord word => nameText word
  | .noSuchCharacter code =>
      if code < 2 ^ 31 then "chr() arg not in range(0x110000)"
        else "Python int too large to convert to C int"
  | .emptyNumeral => "string index out of range"
  | .badDate problem => problem
  | .utf8 problem octet first last =>
      (if first = last then
        "'utf-8' codec can't decode byte 0x" ++ String.ofList
          (Text.hexDigits 2 octet.toNat) ++ " in position "
          ++ toString first
      else
        "'utf-8' codec can't decode bytes in position " ++ toString first ++ "-" ++ toString last)
        ++ ": " ++ problem.text
  | .tooDeep => "the document is nested too deeply"
  | .lacksOperation k name => "'" ++ k.name ++ "' object has no attribute '" ++ name ++ "'"
  | .unhashable k => "unhashable type: '" ++ k.name ++ "'"
  | .notText k => "expected string or bytes-like object, got '" ++ k.name ++ "'"
  | .pairExpected index =>
      "cannot convert dictionary update sequence element #" ++ toString index ++ " to a sequence"
  | .pairLength index length =>
      "dictionary update sequence element #" ++ toString index ++ " has length " ++
        toString length ++ "; 2 is required"
  | .noGroups => "either dataset.groups or groups must be provided"
  | .badPath k => "unsupported operand type(s) for /: 'PosixPath' and '" ++ k.name ++ "'"
  | .notPath k => "expected str, bytes or os.PathLike object, not " ++ k.name
  | .absent path => String.ofList path.chars
  | .file problem path => problem.text ++ ": " ++ nameText path
  | .nullInPath => "embedded null byte"
  | .halves code first last =>
      (if first = last then
        "'utf-8' codec can't encode character '\\u" ++ String.ofList
          (Text.hexDigits 4 code) ++ "' in position "
          ++ toString first
      else "'utf-8' codec can't encode characters in position " ++
        toString first ++ "-" ++ toString last)
        ++ ": surrogates not allowed"
  | .notWritable k => "Object of type " ++ k.shortName ++ " is not JSON serializable"
  | .circular => "Circular reference detected"
  | .tooLongToWrite => tooLongWording
  | .badKey k => "keys must be str, int, float, bool or None, not " ++ k.shortName
  | .unknownColumn => "tuple.index(x): x not in tuple"
  | .refused role call => role.name ++ " " ++ toString call

/-- The message of a fault. -/
def message : Fault → Text
  | .emptyTable path => Text.ofString "empty table: " ++ path
  | .noFile kind archive => Text.ofString ("Zero files found in " ++ kind.noun ++ " ") ++ archive
  | .notPath k => "expected str, bytes or os.PathLike object, not " ++ k.name
  | .absent path => path
  | f => Text.ofString f.wording

end Fault

end Annealing
