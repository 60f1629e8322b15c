import Annealing.Packed.BitCursor

/-!
# Packed — LZMA

LZMA data are the code of a range: a number between 0 and 1, of which every bit takes a part that is
as large as the bit is likely.  How likely a bit is depends on what came before it, and is learned
from the bits themselves.  The bits spell octets and repetitions; a repetition has a length and a
distance, which may be one of the last four.

LZMA2 data are chunks of LZMA data and of octets as they are.

* `Lzma.chunk` unpacks LZMA data, up to a length or to the mark at their end.
* `Lzma.chunks` unpacks LZMA2 data.
-/

namespace Annealing.Lzma

/-- How many bits of the octet before, and how many of the place, an octet depends on; and how many
of the place all else depends on. -/
structure Properties where
  contextBits : Nat
  placeBits : Nat
  symbolBits : Nat
deriving DecidableEq, Repr

/-- The properties that an octet spells. -/
def Properties.ofOctet? (o : UInt8) : Option Properties :=
  let n := o.toNat
  let p : Properties := ⟨n % 9, n / 9 % 5, n / 45⟩
  if 224 < n ∨ 4 < p.contextBits + p.placeBits then none else some p

/-! ### Where the chances of bits stand -/

/-- The number of states, which tell what the last symbols were. -/
def stateCount : Nat := 12

/-- Where the chances of a kind of bits start: that a repetition comes, that its distance is one of
the last four, which of them it is, and that it is longer than one octet. -/
def isMatchAt : Nat := 0

@[inherit_doc isMatchAt]
def isRepeatedAt : Nat := isMatchAt + 16 * stateCount

@[inherit_doc isMatchAt]
def isNotFirstAt : Nat := isRepeatedAt + stateCount

@[inherit_doc isMatchAt]
def isNotSecondAt : Nat := isNotFirstAt + stateCount

@[inherit_doc isMatchAt]
def isNotThirdAt : Nat := isNotSecondAt + stateCount

@[inherit_doc isMatchAt]
def isLongAt : Nat := isNotThirdAt + stateCount

/-- Where the chances of distances start: of their sizes, of the bits behind for middle ones, and of
the last four bits for large ones. -/
def sizeAt : Nat := isLongAt + 16 * stateCount

@[inherit_doc sizeAt]
def middleAt : Nat := sizeAt + 4 * 64

@[inherit_doc sizeAt]
def lowestAt : Nat := middleAt + 128

/-- Where the chances of lengths start: with a distance of their own, and with one of the last
four. -/
def lengthAt : Nat := lowestAt + 16

@[inherit_doc lengthAt]
def repeatedLengthAt : Nat := lengthAt + 514

/-- Where the chances of octets start. -/
def octetAt : Nat := repeatedLengthAt + 514

/-- The chances before anything is learned: every bit is as likely as the other. -/
def evenChances (p : Properties) : Array Nat :=
  Array.replicate (octetAt + 0x300 * 2 ^ (p.contextBits + p.placeBits)) 1024

/-! ### Machine -/

/-- What is known in the middle of LZMA data. -/
structure Machine where
  cursor : BitCursor
  range : UInt32
  code : UInt32
  chances : Array Nat
  properties : Properties
  state : Nat
  /-- The last four distances, each less one. -/
  distances : Nat × Nat × Nat × Nat
  /-- From where on octets may be repeated, and how many of the last ones. -/
  start : Nat
  reach : Nat

/-- A computation that decodes bits. -/
abbrev Decoding := EStateM PackProblem Machine

/-- An octet of the code. -/
def octet : Decoding UInt32 := fun m =>
  match m.cursor.octet? with
  | some o => .ok o.toUInt32 { m with cursor := { m.cursor with place := m.cursor.place + 8 } }
  | none => .error .ended m

/-- Takes a further octet of the code in when the range has become small. -/
def normalize : Decoding Unit := do
  if (← get).range < 0x1000000 then
    let o ← octet
    modify fun m => { m with range := m.range <<< 8, code := (m.code <<< 8) ||| o }

/-- A bit whose chance stands at a place. -/
def bit (place : Nat) : Decoding Nat := do
  normalize
  modifyGet fun (m : Machine) =>
    let chance := m.chances.getD place 1024
    let bound := (m.range >>> 11) * UInt32.ofNat chance
    if m.code < bound then
      (0, { m with
        range := bound, chances := m.chances.setIfInBounds place (chance + (2048 - chance) / 32) })
    else
      (1, { m with
        range := m.range - bound
        code := m.code - bound
        chances := m.chances.setIfInBounds place (chance - chance / 32) })

/-- A bit that is as likely as the other. -/
def evenBit : Decoding Nat := do
  normalize
  modifyGet fun (m : Machine) =>
    let range := m.range >>> 1
    let code := m.code - range
    if code &&& 0x80000000 = 0 then (1, { m with range, code })
      else (0, { m with range, code := code + range })

/-- Some bits, each as likely as the other, the highest first, behind those read already. -/
def evenBits : (count before : Nat) → Decoding Nat
  | 0, before => return before
  | count + 1, before => do evenBits count (2 * before + (← evenBit))

/-- Some bits, the highest first; the chance of each depends on those before it.  `path` is a 1 and
the bits so far. -/
def branches (place : Nat) : (count path : Nat) → Decoding Nat
  | 0, path => return path
  | count + 1, path => do branches place count (2 * path + (← bit (place + path)))

/-- A number of some bits, the highest first. -/
def tree (place count : Nat) : Decoding Nat := do
  return (← branches place count 1) - 2 ^ count

/-- A number of some bits, the lowest first.  `path` is a 1 and the bits so far. -/
def turnedTree (place : Nat) : (count path : Nat) → Decoding Nat
  | 0, _ => return 0
  | count + 1, path => do
      let low ← bit (place + path)
      return low + 2 * (← turnedTree place count (2 * path + low))

/-! ### Symbols -/

/-- How many octets there are that may be repeated. -/
def Machine.within (m : Machine) : Nat :=
  min (m.cursor.written.size - m.start) m.reach

/-- The octet some way back, less one; zero before the first. -/
def Machine.back (m : Machine) (distance : Nat) : Nat :=
  if m.cursor.written.size ≤ m.start + distance then 0
  else (m.cursor.written[m.cursor.written.size - 1 - distance]?.getD 0).toNat

/-- Writes an octet. -/
def write (o : Nat) : Decoding Unit :=
  modify fun m =>
    { m with cursor := { m.cursor with written := m.cursor.written.push (UInt8.ofNat o) } }

/-- The bits of an octet as long as they are those of the octet at the last distance, whose bits
left are `other`; then the rest.  `path` is a 1 and the bits so far. -/
def matchedBits (place : Nat) : (count other path : Nat) → Decoding Nat
  | 0, _, path => return path
  | count + 1, other, path => do
      let expected := other / 0x80 % 2
      let found ← bit (place + 0x100 * (1 + expected) + path)
      if found = expected then matchedBits place count (2 * other % 0x100) (2 * path + found)
      else branches place count (2 * path + found)

/-- An octet that is no repetition. -/
def literal : Decoding Unit := do
  let m ← get
  let p := m.properties
  let placed := (m.cursor.written.size - m.start) % 2 ^ p.placeBits
  let context := placed * 2 ^ p.contextBits + m.back 0 / 2 ^ (8 - p.contextBits)
  let place := octetAt + 0x300 * context
  let path ← if m.state < 7 then branches place 8 1
    else matchedBits place 8 (m.back m.distances.1) 1
  write (path - 0x100)
  modify fun m =>
    { m with state := if m.state < 4 then 0 else if m.state < 10 then m.state - 3 else m.state - 6 }

/-- A length; `symbolPlace` is what it knows of the place. -/
def length (place symbolPlace : Nat) : Decoding Nat := do
  if (← bit place) = 0 then return 2 + (← tree (place + 2 + 8 * symbolPlace) 3)
  if (← bit (place + 1)) = 0 then return 10 + (← tree (place + 130 + 8 * symbolPlace) 3)
  return 18 + (← tree (place + 258) 8)

/-- A distance less one; `length` is that of its repetition. -/
def distance (length : Nat) : Decoding Nat := do
  let size ← tree (sizeAt + 64 * min (length - 2) 3) 6
  if size < 4 then return size
  let bits := size / 2 - 1
  let base := (2 + size % 2) * 2 ^ bits
  if size < 14 then return base + (← turnedTree (middleAt + base - size) bits 1)
  let high ← evenBits (bits - 4) 0
  return base + 16 * high + (← turnedTree lowestAt 4 1)

/-- Repeats octets from some way back, less one.  None are repeated beyond `left`. -/
def copyBack (distance : Nat) : (count : Nat) → (left : Option Nat) → Decoding Unit
  | 0, _ => return
  | _ + 1, some 0 => throw .corrupt
  | count + 1, left => do
      write ((← get).back distance)
      copyBack distance count (left.map (· - 1))

/-- The distance that is the mark at the end of the data. -/
def endMark : Nat := 0xFFFFFFFF

/-- Which of the last four distances comes next. -/
def choice (state : Nat) : Decoding Nat := do
  if (← bit (isNotFirstAt + state)) = 0 then return 0
  if (← bit (isNotSecondAt + state)) = 0 then return 1
  return 2 + (← bit (isNotThirdAt + state))

/-- The last four distances after one of them. -/
def chosen (distances : Nat × Nat × Nat × Nat) : (which : Nat) → Nat × Nat × Nat × Nat
  | 0 => distances
  | 1 => (distances.2.1, distances.1, distances.2.2)
  | 2 => (distances.2.2.1, distances.1, distances.2.1, distances.2.2.2)
  | _ => (distances.2.2.2, distances.1, distances.2.1, distances.2.2.1)

/-- A repetition; answers whether it was the mark at the end of the data.  `left` is how many octets
may still come. -/
def repetition (left : Option Nat) : Decoding Bool := do
  let m ← get
  let symbolPlace := (m.cursor.written.size - m.start) % 2 ^ m.properties.symbolBits
  if (← bit (isRepeatedAt + m.state)) = 0 then
    modify fun m =>
      let (a, b, c, _) := m.distances
      { m with state := if m.state < 7 then 7 else 10, distances := (a, a, b, c) }
    let count ← length lengthAt symbolPlace
    let back ← distance count
    modify fun m => { m with distances := (back, m.distances.2) }
    if back = endMark then return true
    if (← get).within ≤ back then throw .corrupt
    copyBack back count left
    return false
  else
    if m.within = 0 then throw .corrupt
    let which ← choice m.state
    let isLong ← if which = 0 then bit (isLongAt + 16 * m.state + symbolPlace) else pure 1
    modify fun m => { m with distances := chosen m.distances which }
    if isLong = 0 then
      modify fun m => { m with state := if m.state < 7 then 9 else 11 }
      copyBack (← get).distances.1 1 left
    else
      modify fun m => { m with state := if m.state < 7 then 8 else 11 }
      let count ← length repeatedLengthAt symbolPlace
      copyBack (← get).distances.1 count left
    return false

/-- A symbol; answers whether it was the mark at the end of the data. -/
def symbol (left : Option Nat) : Decoding Bool := do
  let m ← get
  let symbolPlace := (m.cursor.written.size - m.start) % 2 ^ m.properties.symbolBits
  if (← bit (isMatchAt + 16 * m.state + symbolPlace)) = 0 then
    if left = some 0 then throw .corrupt
    literal
    return false
  else repetition left

/-- Where LZMA data end: behind so many octets, or at a mark; with `orMark` a mark may follow the
octets. -/
structure Extent where
  size : Option Nat
  orMark : Bool

/-- Whether the code has come to its end. -/
def isFinished : Decoding Bool := do
  normalize
  return (← get).code = 0

/-- Symbols up to the end; `goal` is how much will have been written there. -/
def symbols (extent : Extent) (goal : Option Nat) : (fuel : Nat) → Decoding Unit
  | 0 => throw .ended
  | fuel + 1 => do
      let left := goal.map (· - (← get).cursor.written.size)
      if left = some 0 then
        if ← isFinished then return
        if !extent.orMark then throw .corrupt
      if ← symbol left then
        if left ≠ none ∧ left ≠ some 0 then throw .corrupt
        if !(← isFinished) then throw .corrupt
      else symbols extent goal fuel

/-- The first octets of the code. -/
def begin : Decoding Unit := do
  if (← octet) ≠ 0 then throw .corrupt
  modify fun m => { m with range := 0xFFFFFFFF, code := 0 }
  for _ in [0, 1, 2, 3] do
    let o ← octet
    modify fun m => { m with code := (m.code <<< 8) ||| o }

/-- LZMA data with an extent. -/
def body (extent : Extent) : Decoding Unit := do
  begin
  let m ← get
  let goal := extent.size.map (m.cursor.written.size + ·)
  symbols extent goal (128 * m.cursor.octets.size + extent.size.getD 0 + 64)

/-- A machine that has learned nothing, over data that are read on. -/
def Machine.fresh (c : BitCursor) (p : Properties) (start reach : Nat) : Machine where
  cursor := c
  range := 0
  code := 0
  chances := evenChances p
  properties := p
  state := 0
  distances := (0, 0, 0, 0)
  start := start
  reach := reach

/-- How many of the last octets may be repeated for a size of the dictionary. -/
def reachOf (size : Nat) : Nat := (max 4096 size + 15) / 16 * 16

/-- Unpacks LZMA data. -/
def chunk (p : Properties) (dictionary : Nat) (extent : Extent) : Unpacking Unit := fun c =>
  match body extent (.fresh c p c.written.size (reachOf dictionary)) with
  | .ok _ m => .ok () m.cursor
  | .error problem m => .error problem m.cursor

/-! ### Chunks -/

/-- What the next chunk must bring along. -/
structure Need where
  dictionary : Bool
  properties : Bool

/-- Octets as they are. -/
def storedOctets : (count : Nat) → Decoding Unit
  | 0 => return
  | count + 1 => do
      write (← octet).toNat
      storedOctets count

/-- Forgets what can be repeated. -/
def resetDictionary : Decoding Unit :=
  modify fun m => { m with start := m.cursor.written.size }

/-- Forgets what has been learned. -/
def resetState (p : Properties) : Decoding Unit :=
  modify fun m => { Machine.fresh m.cursor p m.start m.reach with chances := evenChances p }

/-- A number of two octets, the highest first. -/
def size : Decoding Nat := do
  let high ← octet
  let low ← octet
  return 256 * high.toNat + low.toNat

/-- A chunk of LZMA data. -/
def codedChunk (control : Nat) : Decoding Unit := do
  let unpacked := (control % 0x20) * 0x10000 + (← size) + 1
  let packed := (← size) + 1
  if 0xC0 ≤ control then
    match Properties.ofOctet? (← octet).toUInt8 with
    | none => throw .corrupt
    | some p => resetState p
  let before := (← get).cursor.place / 8
  body ⟨some unpacked, false⟩
  if (← get).cursor.place / 8 ≠ before + packed then throw .corrupt

/-- Chunks up to the end. -/
def chunksFrom : (fuel : Nat) → Need → Decoding Unit
  | 0, _ => throw .ended
  | fuel + 1, need => do
      let control := (← octet).toNat
      if control = 0 then return
      let afresh := control = 1 || 0xE0 ≤ control
      if need.dictionary && !afresh then throw .corrupt
      let need : Need :=
        { dictionary := false, properties := (need.properties || afresh) && control < 0xC0 }
      if afresh then resetDictionary
      if control < 0x80 then
        if 2 < control then throw .corrupt
        storedOctets ((← size) + 1)
      else
        if need.properties then throw .corrupt
        if 0xA0 ≤ control ∧ control < 0xC0 then resetState (← get).properties
        codedChunk control
      chunksFrom fuel need

/-- Unpacks LZMA2 data. -/
def chunks (dictionary : Nat) : Unpacking Unit := fun c =>
  match chunksFrom (c.octets.size + 1) ⟨true, true⟩
      (.fresh c ⟨0, 0, 0⟩ c.written.size (reachOf dictionary)) with
  | .ok _ m => .ok () m.cursor
  | .error problem m => .error problem m.cursor

end Annealing.Lzma
