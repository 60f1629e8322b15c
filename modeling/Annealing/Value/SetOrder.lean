import Annealing.Number.Binary64
import Annealing.Value.Basic

/-!
# Value — the order of the members of a set

The members of a set stand in the order of a table of slots.  A table has a power of two of slots,
more than twice as many as members.  Every member has a key, a number of 64 bits; its slot is the
one at the key's lowest bits, or the first empty one of ten from there on, or of those that a
sequence of further places leads to, which depends on all bits of the key.

Numbers have keys that depend on nothing but their value (`Value.slotKey?`).  A set with members of
other kinds keeps the order in which they came.

* `Value.setOrder` puts members into the order of a set.
-/

namespace Annealing

namespace Value

/-- The prime that the keys of numbers are remainders of. -/
def keyModulus : Nat := 2 ^ 61 - 1

/-- The key of infinity. -/
def infinityKey : Nat := 314159

/-- A key of a magnitude under a sign, as a number of 64 bits.  The key −1 is left to nothing. -/
def signedKey (negative : Bool) (key : Nat) : Nat :=
  if !negative || key = 0 then key else if key = 1 then 2 ^ 64 - 2 else 2 ^ 64 - key

/-- The key of a finite double: its magnitude modulo the prime, in which two has the order 61. -/
def doubleKey (b : Binary64) : Nat :=
  signedKey b.negative (b.mantissa % keyModulus * 2 ^ (b.exponent % 61).toNat % keyModulus)

/-- The key of a member, none if it is no number. -/
def slotKey? : Value → Option Nat
  | .bool b => some (if b then 1 else 0)
  | .int n => some (signedKey (n < 0) (n.natAbs % keyModulus))
  | .float x =>
      match Binary64.ofFloat? x with
      | some b => some (doubleKey b)
      | none => if x.isNaN then none else some (signedKey (x < 0) infinityKey)
  | _ => none

/-- The least power of two above a number, but no less than eight. -/
def slotCount (n : Nat) : Nat := max 8 (2 ^ (n.log2 + 1))

/-- The first empty one of `count` slots from a place on. -/
def emptySlot? (slots : Array (Option Value)) (place : Nat) : (count : Nat) → Option Nat
  | 0 => none
  | count + 1 =>
      match slots[place]? with
      | some none => some place
      | _ => emptySlot? slots (place + 1) count

/-- The slot for a key: looked for at a place and the nine behind it, if the table has so many, and
then at the next place of the sequence.  `bits` are the bits of the key that have not come into
play. -/
def slotFor (slots : Array (Option Value)) : (fuel : Nat) → (place bits : Nat) → Nat
  | 0, place, _ => place
  | fuel + 1, place, bits =>
      match emptySlot? slots place (if place + 9 < slots.size then 10 else 1) with
      | some slot => slot
      | none =>
          let bits := bits / 32
          slotFor slots fuel ((place * 5 + 1 + bits) % slots.size) bits

/-- Puts a member with its key into a slot. -/
def placeMember (slots : Array (Option Value)) (member : Value × Nat) : Array (Option Value) :=
  slots.setIfInBounds (slotFor slots (slots.size + 16) (member.2 % slots.size) member.2)
    (some member.1)

/-- Members in the order of a set. -/
def setOrder (members : List Value) : List Value :=
  match members.mapM fun v => v.slotKey?.map (v, ·) with
  | none => members
  | some keyed =>
      let count := if members.length ≤ 4 then 8 else slotCount (2 * members.length)
      ((keyed.foldl placeMember (Array.replicate count none)).toList).filterMap id

end Value

end Annealing
