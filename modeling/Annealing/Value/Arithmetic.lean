import Annealing.Value.Compare
import Annealing.Value.Convert

/-!
# Value — arithmetic

Sums, differences and products of integers are exact.  As soon as one operand is a double, the other
is brought to a double first.  A quotient is always a double: that of two integers is the nearest to
the exact quotient, however large they are.
-/

namespace Annealing

namespace Number

/-- The number as a double. -/
def toReal : Number → Except Fault Float
  | .int n => realOfInt n
  | .float x => .ok x

/-- A number as a value. -/
def toValue : Number → Value
  | .int n => .int n
  | .float x => .float x

/-- Two numbers joined by an operation that is exact on integers. -/
def combine (onInts : Int → Int → Int) (onFloats : Float → Float → Float) :
    Number → Number → Except Fault Number
  | .int a, .int b => .ok (.int (onInts a b))
  | a, b => do return .float (onFloats (← a.toReal) (← b.toReal))

/-- The difference of two numbers. -/
def sub : Number → Number → Except Fault Number := combine (· - ·) (· - ·)

/-- The number with the other sign. -/
def neg : Number → Number
  | .int n => .int (-n)
  | .float x => .float (-x)

/-- The quotient of two numbers. -/
def div : Number → Number → Except Fault Float
  | .int a, .int b =>
      if b = 0 then .error (.divisionByZero false)
      else
        let q := Binary64.ofQuotient a b
        if q.isInf then .error .quotientTooLarge else .ok q
  | a, b => do
      let x ← a.toReal
      let y ← b.toReal
      if y == 0 then .error (.divisionByZero true) else .ok (x / y)

end Number

namespace Value

/-- The numbers of two operands. -/
def operands (op : Operator) (a b : Value) : Except Fault (Number × Number) :=
  match a.number?, b.number? with
  | some m, some n => .ok (m, n)
  | _, _ => .error (.unsupported op a.kind b.kind)

/-- `a - b`. -/
def sub (a b : Value) : Except Fault Number := do
  let (m, n) ← operands .subtract a b
  m.sub n

/-- `a / b`. -/
def div (a b : Value) : Except Fault Float := do
  let (m, n) ← operands .divide a b
  m.div n

/-- A double multiplied by a value. -/
def scale (x : Float) (v : Value) : Except Fault Float :=
  match v with
  | .text _ | .bytes _ | .list _ | .tuple _ => .error .repeatByReal
  | v => do
      let (_, n) ← operands .scale (.float x) v
      return x * (← n.toReal)

/-- The number after a value: `v + 1`. -/
def succ (v : Value) : Except Fault Number :=
  match v with
  | .text _ | .bytes _ | .list _ | .tuple _ => .error (.joinWithInteger v.kind)
  | v => do
      let (m, n) ← operands .add v (.int 1)
      Number.combine (· + ·) (· + ·) m n

end Value

end Annealing
