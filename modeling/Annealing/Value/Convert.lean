import Annealing.Fault
import Annealing.Number.Numeral

/-!
# Value — conversion to integers and real numbers

`Value.toInt` and `Value.toReal` convert truth values, numbers, texts and byte strings.  A double is
cut off toward zero; an integer goes to the nearest double and is refused when it lies beyond them
all.  Every other kind is refused.
-/

namespace Annealing

/-- The number at the place of a double, cut off toward zero. -/
def integerPart (x : Float) : Except Fault Int :=
  match Binary64.ofFloat? x with
  | some b => .ok b.truncate
  | none => .error (if x.isNaN then .nanToInteger else .infinityToInteger)

/-- The double nearest to an integer, refused when it lies beyond them all. -/
def realOfInt (n : Int) : Except Fault Float :=
  let x := Binary64.ofInt n
  if x.isInf then .error .tooLargeForReal else .ok x

namespace Value

/-- Bytes as characters.  Those beyond ASCII stand for no digit and for no blank. -/
def octetText (octets : List UInt8) : List Char :=
  octets.map fun b => if b < 0x80 then Char.ofNat b.toNat else '\uFFFD'

/-- The integer that a text holds. -/
def readInt (shown : Value) (text : List Char) : Except Fault Int :=
  match Numeral.integer text with
  | .ok n => .ok n
  | .error .malformed => .error (.malformedInteger 10 shown)
  | .error (.tooLong count) => .error (.tooManyDigits count)

/-- The real number that a text holds. -/
def readReal (shown : Value) (text : List Char) : Except Fault Float :=
  match Numeral.real text with
  | some x => .ok x
  | none => .error (.malformedReal shown)

/-- Conversion to an integer. -/
def toInt : Value → Except Fault Int
  | .bool b => .ok (if b then 1 else 0)
  | .int n => .ok n
  | .float x => integerPart x
  | .text t => readInt (.text t) t.chars
  | .bytes b => readInt (.bytes b) (octetText b)
  | v => .error (.notInteger v.kind)

/-- Conversion to a real number. -/
def toReal : Value → Except Fault Float
  | .bool b => .ok (if b then 1 else 0)
  | .int n => realOfInt n
  | .float x => .ok x
  | .text t => readReal (.text t) t.chars
  | .bytes b => readReal (.bytes b) (octetText b)
  | v => .error (.notReal v.kind)

/-- The members of a value one after another: the items of a list or a tuple, the members of a set,
the symbols of a text, the bytes of a byte string, the keys of a dictionary. -/
def items : Value → Except Fault (List Value)
  | .list items | .tuple items | .set items => .ok items
  | .text t => .ok (t.map fun s => .text [s])
  | .bytes b => .ok (b.map fun octet => .int octet.toNat)
  | .dict entries => .ok (entries.map (·.1))
  | v => .error (.notIterable v.kind)

end Value

end Annealing
