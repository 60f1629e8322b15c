import Annealing.Packed.Checksum
import Annealing.Packed.BitCursor
import Annealing.Packed.Scramble

/-!
# Packed — sorted blocks

A bzip2 file is a sequence of streams, and a stream a sequence of blocks.  A block was made from its
octets in steps, which are undone in turn:

* symbols in up to six codes, one for every fifty symbols (`symbols`);
* places in a list of octets from which each octet moves to the front, runs of the first place
  written in two digits (`unranked`);
* the last column of all sorted rotations of the octets (`unsorted`), which may have been scrambled;
* runs of four equal octets and more, each with a count behind the fourth (`unrolled`).

What the file holds are the contents of its streams.  Data that are no stream end the file behind
the first stream.
-/

namespace Annealing.Bzip

/-- Finds that the data are no stream. -/
def refuse {α : Type} : Unpacking α := Unpacking.refuse .badStream

/-! ### Codes -/

/-- The greatest length of a word. -/
def lengthLimit : Nat := 20

/-- How many symbols there can be. -/
def symbolLimit : Nat := 258

/-- A code: the shortest length of a word, for every length the last word of it, what to subtract
from a word to find the place of its symbol, and the symbols in the order of their words. -/
structure Code where
  shortest : Nat
  limits : Array Int
  bases : Array Int
  symbols : Array Nat

/-- The words of every length from the shortest on: how many shorter ones there are, and the last
word of the length. -/
def wordRanges (counts : Array Nat) :
    (lengths : List Nat) → (before : Nat) → (next : Int) → List (Nat × Int × Int)
  | [], _, _ => []
  | n :: rest, before, next =>
      let count := counts.getD n 0
      let last := next + count - 1
      (n, last, next - before) :: wordRanges counts rest (before + count) (2 * (last + 1))

/-- The code of the lengths of the words of the symbols from 0 on. -/
def Code.ofLengths (lengths : List Nat) : Code :=
  let shortest := lengths.foldl min lengthLimit
  let longest := lengths.foldl max 0
  let between := (List.range (longest + 1)).drop shortest
  let counts := ((List.range (lengthLimit + 1)).map fun n => lengths.count n).toArray
  let ranges := wordRanges counts between 0 0
  let range? := fun (n : Nat) => ranges.find? fun r => r.1 == n
  { shortest
    limits :=
      ((List.range (lengthLimit + 1)).map fun n => ((range? n).map fun r => r.2.1).getD 0).toArray
    bases := ((List.range (lengthLimit + 1)).map fun n => ((range? n).map fun r => r.2.2).getD
      (lengths.length : Int)).toArray
    symbols :=
      (between.flatMap fun n => (lengths.zipIdx.filter fun s => s.1 == n).map (·.2)).toArray }

/-- The symbol of the word that starts with a value of some bits, bit by bit. -/
def Code.symbolFrom (code : Code) : (fuel length : Nat) → (value : Int) → Unpacking Nat
  | 0, _, _ => refuse
  | fuel + 1, length, value => do
      if value ≤ code.limits.getD length 0 then
        let place := value - code.bases.getD length 0
        if place < 0 ∨ symbolLimit ≤ place then refuse
        return code.symbols.getD place.toNat 0
      else if length = lengthLimit then
        let _ ← Unpacking.highBit
        refuse
      else symbolFrom code fuel (length + 1) (2 * value + (← Unpacking.highBit))

/-- The symbol of the next word. -/
def Code.symbol (code : Code) : Unpacking Nat := do
  code.symbolFrom (lengthLimit + 1) code.shortest (← Unpacking.highBits code.shortest)

/-! ### Headers -/

/-- Reads octets that must be these, one at a time. -/
def expect : List Nat → Unpacking Unit
  | [] => return
  | o :: rest => do
      if (← Unpacking.highBits 8) ≠ o then refuse
      expect rest

/-- The octets that occur: sixteen bits tell which sixteenths of all octets do, sixteen more for
each of these which of its octets do. -/
def occurring : Unpacking (List UInt8) := do
  let groups ← Unpacking.highBits 16
  let rec inGroup (group bits : Nat) : List UInt8 :=
    ((List.range 16).filter fun i => bits.testBit (15 - i)).map fun i =>
      UInt8.ofNat (16 * group + i)
  let rec inGroups : List Nat → Unpacking (List UInt8)
    | [] => return []
    | group :: rest => do
        if groups.testBit (15 - group) then
          let bits ← Unpacking.highBits 16
          return inGroup group bits ++ (← inGroups rest)
        else inGroups rest
  inGroups (List.range 16)

/-- The number of bits that are set up to the first that is not; refused if it reaches a bound. -/
def unary (bound : Nat) : (fuel count : Nat) → Unpacking Nat
  | 0, _ => refuse
  | fuel + 1, count => do
      if (← Unpacking.highBit) = 0 then return count
      if bound ≤ count + 1 then refuse
      unary bound fuel (count + 1)

/-- Some numbers in unary. -/
def unaries (bound : Nat) : (count : Nat) → Unpacking (List Nat)
  | 0 => return []
  | count + 1 => do
      let first ← unary bound (bound + 1) 0
      return first :: (← unaries bound count)

/-- The items at places of a list from which each item moves to the front. -/
def movedToFront : (list : List Nat) → (places : List Nat) → List Nat
  | _, [] => []
  | list, place :: rest =>
      let item := list.getD place 0
      item :: movedToFront (item :: list.eraseIdx place) rest

/-- A length, which starts at the one before it and goes up and down by one. -/
def length : (fuel current : Nat) → Unpacking Nat
  | 0, _ => Unpacking.refuse .ended
  | fuel + 1, current => do
      if current < 1 ∨ lengthLimit < current then refuse
      if (← Unpacking.highBit) = 0 then return current
      if (← Unpacking.highBit) = 0 then length fuel (current + 1) else length fuel (current - 1)

/-- Some lengths, each from the one before it. -/
def lengths (fuel : Nat) : (count current : Nat) → Unpacking (List Nat)
  | 0, _ => return []
  | count + 1, current => do
      let first ← length fuel current
      return first :: (← lengths fuel count first)

/-- Some codes for a count of symbols. -/
def codes (symbols : Nat) : (count : Nat) → Unpacking (List Code)
  | 0 => return []
  | count + 1 => do
      let first ← Unpacking.highBits 5
      let first ← lengths (← Unpacking.bound) symbols first
      return .ofLengths first :: (← codes symbols count)

/-! ### Symbols -/

/-- How many symbols are in one code, and how many such choices count. -/
def groupSize : Nat := 50

@[inherit_doc groupSize]
def choiceLimit : Nat := 18002

/-- The symbols of a block but for the last, which is `ending`.  `choice` are the code chosen, how
many symbols are still in it, and the choices behind it. -/
def symbolsFrom (codes : Array Code) (ending : Nat) :
    (fuel : Nat) → (code : Nat) → (left : Nat) → (choices : List Nat) → (before : Array Nat) →
    Unpacking (Array Nat)
  | 0, _, _, _, _ => Unpacking.refuse .ended
  | fuel + 1, _, 0, choices, before =>
      match choices with
      | [] => refuse
      | code :: rest => symbolsFrom codes ending fuel code groupSize rest before
  | fuel + 1, code, left + 1, choices, before => do
      match codes[code]? with
      | none => refuse
      | some c =>
          let s ← c.symbol
          if s = ending then return before
          symbolsFrom codes ending fuel code left choices (before.push s)

/-- What has been made of symbols: the octets of the last column, the list in which octets move to
the front, and a run that may go on, with its length so far and the weight of its next digit. -/
structure Ranks where
  column : ByteArray
  list : List UInt8
  run : Nat
  weight : Nat

/-- The greatest weight of a digit of a run. -/
def weightLimit : Nat := 2 * 1024 * 1024

/-- An octet some times. -/
def repeated (o : UInt8) : (count : Nat) → ByteArray → ByteArray
  | 0, column => column
  | count + 1, column => repeated o count (column.push o)

/-- Ends a run: the first octet of the list as often as it says.  None if the column gets too
long. -/
def Ranks.endRun (limit : Nat) (r : Ranks) : Option Ranks :=
  if limit < r.column.size + r.run then none
  else some { r with column := repeated (r.list.headD 0) r.run r.column, run := 0, weight := 1 }

/-- One symbol: a digit of a run, or the place of an octet in the list. -/
def Ranks.step (limit : Nat) (r : Ranks) (symbol : Nat) : Option Ranks :=
  if symbol ≤ 1 then
    if weightLimit ≤ r.weight then none
    else some { r with run := r.run + (symbol + 1) * r.weight, weight := 2 * r.weight }
  else do
    let r ← r.endRun limit
    if limit ≤ r.column.size then none
    let o := r.list.getD (symbol - 1) 0
    return { r with column := r.column.push o, list := o :: r.list.eraseIdx (symbol - 1) }

/-- The last column that symbols stand for. -/
def unranked (limit : Nat) (list : List UInt8) (symbols : Array Nat) : Option ByteArray := do
  let r ← symbols.foldlM (Ranks.step limit) ⟨.empty, list, 0, 1⟩
  return (← r.endRun limit).column

/-! ### Octets -/

/-- For every octet how many places of a column hold a smaller one. -/
def starts (column : ByteArray) : Array Nat :=
  let counts := column.foldl (fun cs o => cs.modify o.toNat (· + 1)) (Array.replicate 256 0)
  (counts.foldl (fun r n => (r.1.push r.2, r.2 + n)) (#[], 0)).1

/-- For every place of the first column the place of the last column whose octet it holds. -/
def successors (column : ByteArray) : Array Nat :=
  (column.foldl (fun r o =>
    let place := r.2.1.getD o.toNat 0
    (r.1.setIfInBounds place r.2.2, r.2.1.setIfInBounds o.toNat (place + 1), r.2.2 + 1))
    (Array.replicate column.size 0, starts column, 0)).1

/-- The octets whose sorted rotations have a column as their last one, from a place on. -/
def unsorted (column : ByteArray) (first : Nat) : ByteArray :=
  let next := successors column
  (column.foldl (fun r _ =>
    (r.1.push (column[r.2]?.getD 0), next.getD r.2 0)) (ByteArray.empty, next.getD first 0)).1

/-- The octets with their runs: `last` is the octet before and `count` how often it has come. -/
structure Runs where
  octets : ByteArray
  last : UInt8
  count : Nat

/-- One octet; behind four equal ones it is a count. -/
def Runs.step (r : Runs) (o : UInt8) : Runs :=
  if r.count = 4 then { r with octets := repeated r.last o.toNat r.octets, count := 0 }
  else { octets := r.octets.push o, last := o, count := if r.count ≠ 0 ∧
           o = r.last then r.count + 1 else 1 }

/-- The octets with their runs, and whether no count is missing at the end. -/
def unrolled (octets : ByteArray) : ByteArray × Bool :=
  let r := octets.foldl Runs.step ⟨.empty, 0, 0⟩
  (r.octets, r.count ≠ 4)

/-! ### Blocks and streams -/

/-- An answer, or that the data are no stream. -/
def orRefuse {α : Type} : Option α → Unpacking α
  | some a => return a
  | none => refuse

/-- Writes octets. -/
def writeAll (octets : ByteArray) : Unpacking Unit :=
  modify fun c => { c with written := c.written ++ octets }

/-- Unpacks a block behind its mark and answers its checksum.  `limit` is the greatest length of its
column. -/
def block (limit : Nat) : Unpacking UInt32 := do
  let stored ← Unpacking.highBits 32
  let scrambled ← Unpacking.highBit
  let first ← Unpacking.highBits 24
  if 10 + limit < first then refuse
  let octets ← occurring
  if octets.isEmpty then refuse
  let count := octets.length + 2
  let groups ← Unpacking.highBits 3
  if groups < 2 ∨ 6 < groups then refuse
  let choices ← Unpacking.highBits 15
  if choices < 1 then refuse
  let choices ← unaries groups choices
  let choices := movedToFront (List.range groups) (choices.take choiceLimit)
  let codes ← codes count groups
  let symbols ← symbolsFrom codes.toArray (count - 1) (2 * (← Unpacking.bound)) 0 0 choices #[]
  let column ← orRefuse (unranked limit octets symbols)
  if column.size ≤ first then refuse
  let turned := unsorted column first
  let (content, isWhole) := unrolled (if scrambled = 1 then Scramble.undone turned else turned)
  writeAll content
  if !isWhole then refuse
  let computed := Checksum.blockSum content.toList
  if computed.toNat ≠ stored then refuse
  return computed

/-- Unpacks the blocks of a stream; `sum` is the checksum of those before. -/
def blocks (limit : Nat) : (fuel : Nat) → (sum : UInt32) → Unpacking Unit
  | 0, _ => Unpacking.refuse .ended
  | fuel + 1, sum => do
      let mark ← Unpacking.highBits 8
      if mark = 0x17 then
        expect [0x72, 0x45, 0x38, 0x50, 0x90]
        if (← Unpacking.highBits 32) ≠ sum.toNat then refuse
        Unpacking.align
      else
        if mark ≠ 0x31 then refuse
        expect [0x41, 0x59, 0x26, 0x53, 0x59]
        let computed ← block limit
        blocks limit fuel (((sum <<< 1) ||| (sum >>> 31)) ^^^ computed)

/-- Unpacks a stream. -/
def stream : Unpacking Unit := do
  expect [0x42, 0x5A, 0x68]
  let level ← Unpacking.highBits 8
  if level < 0x31 ∨ 0x39 < level then refuse
  blocks (100000 * (level - 0x30)) (← Unpacking.bound) 0

/-- Unpacks the streams behind the first.  What is no stream counts for nothing, together with what
it has written. -/
def furtherStreams : (fuel : Nat) → Unpacking Unit
  | 0 => return
  | fuel + 1 => do
      if ← Unpacking.isAtEnd then return
      let size ← Unpacking.size
      let isStream ← tryCatch (stream *> pure true) fun problem =>
        match problem with
        | .badStream => do
            modify fun c => { c with written := c.written.extract 0 size }
            return false
        | other => throw other
      if isStream then furtherStreams fuel

/-- Unpacks a file. -/
def unpack : Unpacking Unit := do
  stream
  furtherStreams (← Unpacking.bound)

end Annealing.Bzip
