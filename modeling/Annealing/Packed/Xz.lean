import Annealing.Packed.Checksum
import Annealing.Packed.Digest
import Annealing.Packed.Lzma

/-!
# Packed — xz files

An xz file is a sequence of streams.  A stream is a header, blocks, an index of their sizes and a
footer.  A block is a header, LZMA2 data and a check of what they hold; a filter behind the data may
have replaced every octet by its difference to one before it.  LZMA data may also stand alone behind
a short header.

What the file holds are the contents of its streams.  Data that are no stream end the file behind
the first stream.
-/

namespace Annealing.Xz

/-- The octets that a number spells, seven bits in each, the lowest first; all but the last have
their highest bit set.  Refused beyond nine octets or if the last is zero without need. -/
def varying : (fuel shift : Nat) → Unpacking Nat
  | 0, _ => Unpacking.refuse .corrupt
  | fuel + 1, shift => do
      let o := (← Unpacking.octet).toNat
      if o = 0 ∧ 0 < shift then Unpacking.refuse .corrupt
      if o < 0x80 then return o * 2 ^ shift
      return (o - 0x80) * 2 ^ shift + (← varying fuel (shift + 7))

/-- A number of one to nine octets. -/
def size : Unpacking Nat := varying 9 0

/-- Zeros up to a multiple of four octets behind a place. -/
def padding (start : Nat) : Unpacking Unit := do
  let count := (4 - ((← Unpacking.octetsRead) - start) % 4) % 4
  for _ in List.range count do
    if (← Unpacking.octet) ≠ 0 then Unpacking.refuse .corrupt

/-- The octets between two places. -/
def between (start stop : Nat) : Unpacking (List UInt8) := do
  return ((← get).octets.extract start stop).toList

/-- The first octets of a stream. -/
def mark : List UInt8 := [0xFD, 0x37, 0x7A, 0x58, 0x5A, 0x00]

/-- The kind of check that two octets name. -/
def checkKind (flags : List UInt8) : Unpacking Nat := do
  match flags with
  | [0, kind] => if kind < 0x10 then return kind.toNat else Unpacking.refuse .badOptions
  | _ => Unpacking.refuse .badOptions

/-- Reads the header of a stream and answers the kind of its checks. -/
def header : Unpacking Nat := do
  let all ← Unpacking.octets 12
  if all.take 6 ≠ mark then Unpacking.refuse .unknownFormat
  let flags := (all.drop 6).take 2
  if Unpacking.littleEndian (all.drop 8) ≠
    (Checksum.crc32 flags).toNat then Unpacking.refuse .corrupt
  checkKind flags

/-- How many octets a check has. -/
def checkSize (kind : Nat) : Nat :=
  if kind = 0 then 0 else 4 * 2 ^ ((kind - 1) / 3)

/-- The check of octets, none if the kind is not known. -/
def check? (kind : Nat) (octets : List UInt8) : Option (List UInt8) :=
  if kind = 0x1 then some (Digest.bigEndian 4 (Checksum.crc32 octets).toNat).reverse
  else if kind = 0x4 then some (Digest.bigEndian 8 (Checksum.crc64 octets).toNat).reverse
  else if kind = 0xA then some (Digest.sha256 octets)
  else none

/-! ### Blocks -/

/-- What the header of a block tells: its sizes if it does, the sizes of the dictionary, and how far
back the octets stand that were subtracted, for every filter of that kind. -/
structure Block where
  packed : Option Nat
  unpacked : Option Nat
  dictionary : Nat
  differences : List Nat

/-- The size of a dictionary that an octet spells. -/
def dictionarySize (o : UInt8) : Unpacking Nat := do
  let n := o.toNat
  if 40 < n then Unpacking.refuse .badOptions
  return if n = 40 then 2 ^ 32 - 1 else (2 + n % 2) * 2 ^ (n / 2 + 11)

/-- A filter: the distance of differences, or the size of the dictionary of the data. -/
inductive Filter where
  | difference (distance : Nat)
  | data (dictionary : Nat)

/-- A filter in the header of a block that ends at a place. -/
def filter (stop : Nat) : Unpacking Filter := do
  let kind ← size
  if 2 ^ 62 ≤ kind then Unpacking.refuse .corrupt
  let length ← size
  if stop < (← Unpacking.octetsRead) + length then Unpacking.refuse .corrupt
  match kind, ← Unpacking.octets length with
  | 0x03, [o] => return .difference (o.toNat + 1)
  | 0x21, [o] => return .data (← dictionarySize o)
  | _, _ => Unpacking.refuse .badOptions

/-- Some filters. -/
def filters (stop : Nat) : (count : Nat) → Unpacking (List Filter)
  | 0 => return []
  | count + 1 => do
      let first ← filter stop
      return first :: (← filters stop count)

/-- The distances of differences in front of the size of a dictionary. -/
def chain : List Filter → Unpacking (List Nat × Nat)
  | [.data dictionary] => return ([], dictionary)
  | .difference distance :: rest => do
      let (differences, dictionary) ← chain rest
      return (distance :: differences, dictionary)
  | _ => Unpacking.refuse .badOptions

/-- Reads what a header of a block holds, whose octets end at a place. -/
def blockFields (flags : UInt8) (stop : Nat) : Unpacking Block := do
  if flags &&& 0x3C ≠ 0 then Unpacking.refuse .badOptions
  let packed ← if flags &&& 0x40 ≠ 0 then some <$> size else pure none
  if packed = some 0 then Unpacking.refuse .corrupt
  let unpacked ← if flags &&& 0x80 ≠ 0 then some <$> size else pure none
  let all ← filters stop ((flags &&& 3).toNat + 1)
  if stop < (← Unpacking.octetsRead) then Unpacking.refuse .corrupt
  if (← between (← Unpacking.octetsRead) stop).any (· ≠ 0) then Unpacking.refuse .badOptions
  let (differences, dictionary) ← chain all
  return { packed, unpacked, dictionary, differences }

/-- Reads the header of a block of some octets, its first one apart. -/
def blockHeader (first : UInt8) : Unpacking Block := do
  let start := (← Unpacking.octetsRead) - 1
  let stop := start + 4 * first.toNat
  let all ← Unpacking.octets (4 * first.toNat + 3)
  let sum ← Unpacking.littleEndian <$> between stop (stop + 4)
  if sum ≠ (Checksum.crc32 (← between start stop)).toNat then Unpacking.refuse .corrupt
  modify fun c => { c with place := 8 * (start + 2) }
  let fields ← blockFields (all.headD 0) stop
  modify fun c => { c with place := 8 * (stop + 4) }
  return fields

/-- Octets from their differences to those some way back. -/
def summed (distance : Nat) (octets : List UInt8) : List UInt8 :=
  (octets.foldl (fun (sums : Array UInt8) o =>
    sums.push
      (o + (if sums.size < distance then 0 else sums.getD (sums.size - distance) 0))) #[]).toList

/-- Whether a size is the one announced. -/
def agrees (announced : Option Nat) (size : Nat) : Bool :=
  announced.all (· == size)

/-- Unpacks a block whose header starts with an octet; answers its size without padding, and that of
what it holds. -/
def block (kind : Nat) (first : UInt8) : Unpacking (Nat × Nat) := do
  let headerStart := (← Unpacking.octetsRead) - 1
  let fields ← blockHeader first
  let start ← Unpacking.octetsRead
  let written ← Unpacking.size
  Lzma.chunks fields.dictionary
  let packed := (← Unpacking.octetsRead) - start
  let content := fields.differences.foldr summed (← Unpacking.writtenFrom written)
  modify fun c => { c with written := c.written.extract 0 written ++ ⟨content.toArray⟩ }
  if !agrees fields.packed packed ||
    !agrees fields.unpacked content.length then Unpacking.refuse .corrupt
  padding start
  let found ← Unpacking.octets (checkSize kind)
  if (check? kind content).any (· ≠ found) then Unpacking.refuse .corrupt
  return (start - headerStart + packed + checkSize kind, content.length)

/-! ### Streams -/

/-- Some pairs of sizes. -/
def sizePairs : (count : Nat) → Unpacking (List (Nat × Nat))
  | 0 => return []
  | count + 1 => do
      let packed ← size
      let unpacked ← size
      return (packed, unpacked) :: (← sizePairs count)

/-- Reads an index, its first octet apart, which must list the sizes of the blocks; answers its
size. -/
def index (sizes : List (Nat × Nat)) : Unpacking Nat := do
  let start := (← Unpacking.octetsRead) - 1
  if (← size) ≠ sizes.length then Unpacking.refuse .corrupt
  if (← sizePairs sizes.length) ≠ sizes then Unpacking.refuse .corrupt
  padding start
  let stop ← Unpacking.octetsRead
  if (← Unpacking.number 4) ≠
    (Checksum.crc32 (← between start stop)).toNat then Unpacking.refuse .corrupt
  return stop + 4 - start

/-- Reads the footer of a stream with this kind of check and an index of this size. -/
def footer (kind indexSize : Nat) : Unpacking Unit := do
  let all ← Unpacking.octets 12
  if all.drop 10 ≠ [0x59, 0x5A] then Unpacking.refuse .corrupt
  let fields := (all.drop 4).take 6
  if Unpacking.littleEndian (all.take 4) ≠
    (Checksum.crc32 fields).toNat then Unpacking.refuse .corrupt
  let found ← checkKind (fields.drop 4)
  if 4 * (Unpacking.littleEndian (fields.take 4) + 1) ≠ indexSize ∨
    found ≠ kind then Unpacking.refuse .corrupt

/-- Unpacks the blocks of a stream and reads what follows them; `sizes` are those of the blocks
before, the last one first. -/
def blocks (kind : Nat) : (fuel : Nat) → (sizes : List (Nat × Nat)) → Unpacking Unit
  | 0, _ => Unpacking.refuse .ended
  | fuel + 1, sizes => do
      let first ← Unpacking.octet
      if first = 0 then footer kind (← index sizes.reverse)
      else
        let sizesOf ← block kind first
        blocks kind fuel (sizesOf :: sizes)

/-- Whether a size of a dictionary is a power of two, or one and a half of one. -/
def isUsual (size : Nat) : Bool :=
  size = 2 ^ 32 - 1 || size = 0 || (List.range 32).any fun k =>
    size = 2 ^ k || (size = 3 * 2 ^ (k - 1) && 0 < k)

/-- The number of octets that stands for one that is not known. -/
def unknownSize : Nat := 2 ^ 64 - 1

/-- Unpacks LZMA data that stand alone. -/
def alone : Unpacking Unit := do
  match Lzma.Properties.ofOctet? (← Unpacking.octet) with
  | none => Unpacking.refuse .unknownFormat
  | some p =>
      let dictionary ← Unpacking.number 4
      if !isUsual dictionary then Unpacking.refuse .unknownFormat
      let unpacked ← Unpacking.number 8
      if unpacked ≠ unknownSize ∧ 2 ^ 38 ≤ unpacked then Unpacking.refuse .unknownFormat
      Lzma.chunk p dictionary ⟨if unpacked = unknownSize then none else some unpacked, true⟩

/-- Unpacks a stream. -/
def stream : Unpacking Unit := do
  if (← get).octet? = some 0xFD then blocks (← header) (← Unpacking.bound) []
  else alone

/-- Unpacks the streams behind the first.  What is no stream counts for nothing, together with what
it has written. -/
def furtherStreams : (fuel : Nat) → Unpacking Unit
  | 0 => return
  | fuel + 1 => do
      if ← Unpacking.isAtEnd then return
      let size ← Unpacking.size
      let isStream ← tryCatch (stream *> pure true) fun problem =>
        match problem with
        | .ended => throw .ended
        | _ => do
            modify fun c => { c with written := c.written.extract 0 size }
            return false
      if isStream then furtherStreams fuel

/-- Unpacks a file. -/
def unpack : Unpacking Unit := do
  stream
  furtherStreams (← Unpacking.bound)

end Annealing.Xz
