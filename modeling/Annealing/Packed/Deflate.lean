import Annealing.Packed.BitCursor

/-!
# Packed — deflated data

Deflated data are blocks.  A block holds octets as they are, or symbols in a code: octets, the end
of the block, and lengths of what is to be repeated, each with a distance behind it that tells how
far back it stands.  The code is a fixed one, or the block starts with it.

A *code* gives every symbol that occurs a word of bits, none of which begins another.  It is
determined by the lengths of its words: words of one length are consecutive in the order of their
symbols, and follow the shorter ones.

* `Code.ofLengths` is the code of lengths, and `Code.fits` says which lengths may be used.
* `inflate` unpacks deflated data.
-/

namespace Annealing

/-- A code: for every length of a word how many there are, and the symbols in the order of their
words. -/
structure Code where
  counts : Array Nat
  symbols : Array Nat
  /-- The length of the longest word, or 1 if there is none. -/
  longest : Nat
deriving Repr

namespace Code

/-- The greatest length of a word. -/
def lengthLimit : Nat := 15

/-- The code of the lengths of the words of the symbols from 0 on; the length 0 stands for a symbol
without a word. -/
def ofLengths (lengths : List Nat) : Code where
  counts := ((List.range (lengthLimit + 1)).map fun n => lengths.count n).toArray
  symbols := ((List.range lengthLimit).flatMap fun n =>
    (lengths.zipIdx.filter fun s => s.1 == n + 1).map (·.2)).toArray
  longest := max 1 (lengths.foldl max 0)

/-- How much of all words of the greatest length the words of a code take. -/
def mass (lengths : List Nat) : Nat :=
  lengths.foldl (fun taken n => taken + if n = 0 then 0 else 2 ^ (lengthLimit - n)) 0

/-- Whether the words of these lengths can be told apart and leave no word over.  A code without
words is let pass, and unless `strict` one with a single word of one bit. -/
def fits (strict : Bool) (lengths : List Nat) : Bool :=
  let longest := lengths.foldl max 0
  longest = 0 || mass lengths =
    2 ^ lengthLimit || (!strict && longest = 1 && mass lengths ≤ 2 ^ lengthLimit)

/-- The symbol of the next word, bit by bit.  `value` are the bits read so far, `first` the first
word of this length, and `before` the number of shorter words. -/
def symbolFrom (code : Code) : (left value first before : Nat) → Unpacking (Option Nat)
  | 0, _, _, _ => return none
  | left + 1, value, first, before => do
      let value := 2 * value + (← Unpacking.lowBit)
      let count := code.counts.getD (code.longest - left) 0
      if value < first + count then return code.symbols[before + (value - first)]?
      else symbolFrom code left value (2 * (first + count)) (before + count)

/-- The symbol of the next word, none if there is no such word. -/
def symbol (code : Code) : Unpacking (Option Nat) := symbolFrom code code.longest 0 0 0

end Code

namespace Deflate

/-- Finds a problem of deflated data. -/
def refuse {α : Type} (problem : DeflateProblem) : Unpacking α :=
  Unpacking.refuse (.deflate problem)

/-- For the symbols of lengths: the least length, and how many bits tell the rest. -/
def lengthBases : Array (Nat × Nat) :=
  #[(3, 0), (4, 0), (5, 0), (6, 0), (7, 0), (8, 0), (9, 0), (10, 0), (11, 1), (13, 1), (15, 1),
    (17, 1), (19, 2), (23, 2), (27, 2), (31, 2), (35, 3), (43, 3), (51, 3), (59, 3), (67, 4),
    (83, 4), (99, 4), (115, 4), (131, 5), (163, 5), (195, 5), (227, 5), (258, 0)]

/-- For the symbols of distances: the least distance, and how many bits tell the rest. -/
def distanceBases : Array (Nat × Nat) :=
  #[(1, 0), (2, 0), (3, 0), (4, 0), (5, 1), (7, 1), (9, 2), (13, 2), (17, 3), (25, 3), (33, 4),
    (49, 4), (65, 5), (97, 5), (129, 6), (193, 6), (257, 7), (385, 7), (513, 8), (769, 8),
    (1025, 9), (1537, 9), (2049, 10), (3073, 10), (4097, 11), (6145, 11), (8193, 12), (12289, 12),
    (16385, 13), (24577, 13)]

/-- The symbol that ends a block. -/
def endOfBlock : Nat := 256

/-- A least value and bits that tell the rest; the problem if there is none. -/
def extended (problem : DeflateProblem) : Option (Nat × Nat) → Unpacking Nat
  | some (base, bits) => do return base + (← Unpacking.lowBits bits)
  | none => refuse problem

/-- A repetition: its length, then its distance, which must not lead before `start`. -/
def repetition (start : Nat) (distances : Code) (symbol : Nat) : Unpacking Unit := do
  let length ← extended .literal lengthBases[symbol - (endOfBlock + 1)]?
  match ← distances.symbol with
  | none => refuse .distance
  | some d =>
      let distance ← extended .distance distanceBases[d]?
      if (← Unpacking.size) < start + distance then refuse .tooFarBack
      Unpacking.copyBack distance length

/-- The symbols of a block. -/
def symbols (start : Nat) (literals distances : Code) : (fuel : Nat) → Unpacking Unit
  | 0 => Unpacking.refuse .ended
  | fuel + 1 => do
      match ← literals.symbol with
      | none => refuse .literal
      | some s =>
          if s = endOfBlock then return
          if s < endOfBlock then Unpacking.write (UInt8.ofNat s) else repetition start distances s
          symbols start literals distances fuel

/-- Octets as they are. -/
def storedOctets : (count : Nat) → Unpacking Unit
  | 0 => return
  | count + 1 => do
      Unpacking.write (← Unpacking.octet)
      storedOctets count

/-- A block of octets as they are. -/
def storedBlock : Unpacking Unit := do
  Unpacking.align
  let length ← Unpacking.number 2
  let inverse ← Unpacking.number 2
  if length + inverse ≠ 0xFFFF then refuse .storedLengths
  storedOctets length

/-- The fixed code of octets and lengths, and that of distances. -/
def fixedCodes : Code × Code :=
  (.ofLengths
    (List.replicate 144 8 ++ List.replicate 112 9 ++ List.replicate 24 7 ++ List.replicate 8 8),
   .ofLengths (List.replicate 32 5))

/-- The order in which the lengths of the words for lengths stand. -/
def lengthOrder : List Nat := [16, 17, 18, 0, 8, 7, 9, 6, 10, 5, 11, 4, 12, 3, 13, 2, 14, 1, 15]

/-- Some numbers of three bits. -/
def triples : (count : Nat) → Unpacking (List Nat)
  | 0 => return []
  | count + 1 => do
      let first ← Unpacking.lowBits 3
      return first :: (← triples count)

/-- Lengths of words, which are in a code of their own: a length, the last one again, or zeros.
`before` are those read so far, the last one first. -/
def wordLengths (code : Code) (count : Nat) :
    (fuel : Nat) → (before : List Nat) → Unpacking (List Nat)
  | 0, before => return before.reverse
  | fuel + 1, before => do
      if count ≤ before.length then return before.reverse
      let symbol := (← code.symbol).getD 0
      if symbol < 16 then wordLengths code count fuel (symbol :: before)
      else
        let more ← if symbol = 16 then (· + 3) <$> Unpacking.lowBits 2
          else if symbol = 17 then (· + 3) <$> Unpacking.lowBits 3
          else (· + 11) <$> Unpacking.lowBits 7
        if symbol = 16 && before.isEmpty then refuse .repeatedLength
        if count < before.length + more then refuse .repeatedLength
        let length := if symbol = 16 then before.headD 0 else 0
        wordLengths code count fuel (List.replicate more length ++ before)

/-- The codes at the front of a block. -/
def codes : Unpacking (Code × Code) := do
  let literals := (← Unpacking.lowBits 5) + 257
  let distances := (← Unpacking.lowBits 5) + 1
  let lengths := (← Unpacking.lowBits 4) + 4
  if 286 < literals ∨ 30 < distances then refuse .tooManySymbols
  let inOrder := lengthOrder.zip (← triples lengths)
  let lengthLengths := (List.range 19).map fun s => (inOrder.lookup s).getD 0
  if !Code.fits true lengthLengths then refuse .codeLengths
  let count := literals + distances
  let all ← wordLengths (.ofLengths lengthLengths) count count []
  let literalLengths := all.take literals
  let distanceLengths := all.drop literals
  if literalLengths.getD endOfBlock 0 = 0 then refuse .noEndOfBlock
  if !Code.fits false literalLengths then refuse .literalCode
  if !Code.fits false distanceLengths then refuse .distanceCode
  return (.ofLengths literalLengths, .ofLengths distanceLengths)

/-- A block in a code. -/
def codedBlock (start : Nat) (codes : Code × Code) : Unpacking Unit := do
  symbols start codes.1 codes.2 (← Unpacking.bound)

/-- The blocks up to the one that says it is the last. -/
def blocks (start : Nat) : (fuel : Nat) → Unpacking Unit
  | 0 => Unpacking.refuse .ended
  | fuel + 1 => do
      let last ← Unpacking.lowBit
      match ← Unpacking.lowBits 2 with
      | 0 => storedBlock
      | 1 => codedBlock start fixedCodes
      | 2 => codedBlock start (← codes)
      | _ => refuse .blockKind
      if last = 1 then return
      blocks start fuel

end Deflate

/-- Unpacks deflated data and goes on to the octet behind them. -/
def inflate : Unpacking Unit := do
  Deflate.blocks (← Unpacking.size) (← Unpacking.bound)
  Unpacking.align

end Annealing
