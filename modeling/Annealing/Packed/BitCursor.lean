import Annealing.Packed.Problem

/-!
# Packed — reading bits

Packed data are read bit by bit from a place on, and what they hold is written octet by octet.
`Unpacking` is a computation that does so and may find a problem; it keeps the place and what it has
written even then.  Data that end too early are the problem `ended`.

Formats differ in the order of the bits of an octet: `lowBits` takes the lowest bit first and makes
it the lowest of the number, `highBits` takes the highest first and makes it the highest.
-/

namespace Annealing

/-- Packed data, the place in them and what has been unpacked. -/
structure BitCursor where
  octets : ByteArray
  /-- The place of the next bit, counted from the first of all. -/
  place : Nat
  written : ByteArray

/-- A computation that reads packed data and writes what they hold. -/
abbrev Unpacking := EStateM PackProblem BitCursor

namespace BitCursor

/-- Data before the first bit. -/
def start (octets : ByteArray) : BitCursor := ⟨octets, 0, .empty⟩

/-- The octet of the next bit. -/
def octet? (c : BitCursor) : Option UInt8 := c.octets[c.place / 8]?

end BitCursor

namespace Unpacking

/-- Finds a problem. -/
def refuse {α : Type} (problem : PackProblem) : Unpacking α := throw problem

/-- A bit, the lowest of an octet first. -/
def lowBit : Unpacking Nat := fun c =>
  match c.octet? with
  | some o => .ok ((o.toNat >>> (c.place % 8)) % 2) { c with place := c.place + 1 }
  | none => .error .ended c

/-- A bit, the highest of an octet first. -/
def highBit : Unpacking Nat := fun c =>
  match c.octet? with
  | some o => .ok ((o.toNat >>> (7 - c.place % 8)) % 2) { c with place := c.place + 1 }
  | none => .error .ended c

/-- A number of some bits, the lowest first. -/
def lowBits : (count : Nat) → Unpacking Nat
  | 0 => return 0
  | count + 1 => do
      let low ← lowBit
      return low + 2 * (← lowBits count)

/-- A number of some bits behind those read already, the highest first. -/
def highBitsAfter : (before count : Nat) → Unpacking Nat
  | before, 0 => return before
  | before, count + 1 => do highBitsAfter (2 * before + (← highBit)) count

/-- A number of some bits, the highest first. -/
def highBits (count : Nat) : Unpacking Nat := highBitsAfter 0 count

/-- Goes on to the next octet unless it starts here. -/
def align : Unpacking Unit :=
  modify fun c => { c with place := (c.place + 7) / 8 * 8 }

/-- An octet, at the place of its first bit. -/
def octet : Unpacking UInt8 := fun c =>
  match c.octet? with
  | some o => .ok o { c with place := c.place + 8 }
  | none => .error .ended c

/-- Some octets. -/
def octets : (count : Nat) → Unpacking (List UInt8)
  | 0 => return []
  | count + 1 => do
      let first ← octet
      return first :: (← octets count)

/-- The number of octets, the lowest first. -/
def littleEndian (octets : List UInt8) : Nat :=
  octets.foldr (fun o n => o.toNat + 256 * n) 0

/-- A number of some octets, the lowest first. -/
def number (count : Nat) : Unpacking Nat := do
  return littleEndian (← octets count)

/-- Whether the data end here. -/
def isAtEnd : Unpacking Bool := do
  return (← get).octet?.isNone

/-- The number of octets before the next one. -/
def octetsRead : Unpacking Nat := do
  return (← get).place / 8

/-- The count of steps that reading bit by bit cannot exceed. -/
def bound : Unpacking Nat := do
  return 8 * (← get).octets.size + 8

/-- Writes an octet. -/
def write (o : UInt8) : Unpacking Unit :=
  modify fun c => { c with written := c.written.push o }

/-- How much has been written. -/
def size : Unpacking Nat := do
  return (← get).written.size

/-- Writes as many octets again as stand some way back, octet by octet. -/
def copyBack (distance : Nat) : (count : Nat) → Unpacking Unit
  | 0 => return
  | count + 1 => do
      modify fun c =>
        { c with written := c.written.push (c.written[c.written.size - distance]?.getD 0) }
      copyBack distance count

/-- What has been written from a place on. -/
def writtenFrom (start : Nat) : Unpacking (List UInt8) := do
  let c ← get
  return (c.written.extract start c.written.size).toList

end Unpacking

end Annealing
