import Annealing.Packed.Bzip
import Annealing.Packed.Checksum
import Annealing.Packed.CodePage
import Annealing.Packed.Contents
import Annealing.Packed.Deflate
import Annealing.Packed.Lzma
import Annealing.Text.Utf8

/-!
# Packed — archives with a directory

Files stand one after another, each behind a header, and a directory of them follows.  A record at
the end of the data tells where the directory stands; only a comment may follow it.  Places are
counted from where the archive starts, and something else may stand in front of it.  Sizes and
places that need more than four octets stand in extra fields, and a second record tells them of the
directory.

* `Zip.entries` are the entries of the directory.
* `Zip.content` is the content of the file of an entry: it is unpacked, cut to the size that the
  entry tells, and checked.
-/

namespace Annealing.Zip

/-- Finds a problem. -/
def refuse {α : Type} (problem : ZipProblem) : Except Fault α := throw (.packed (.zip problem))

/-! ### Octets at places -/

/-- The octets between two places. -/
def between (data : ByteArray) (start stop : Nat) : List UInt8 :=
  (octetsBetween data start stop).toList

/-- The number at a place, the lowest octet first. -/
def number (data : ByteArray) (place width : Nat) : Nat :=
  Unpacking.littleEndian (between data place (place + width))

/-- Whether a mark stands at a place: two letters, which all marks share, and two octets. -/
def isMarked (data : ByteArray) (place : Nat) (first second : UInt8) : Bool :=
  between data place (place + 4) = [0x50, 0x4B, first, second]

/-! ### Directory -/

/-- The length of the record at the end, that of the second record, and that of the locator of the
second record. -/
def endLength : Nat := 22

@[inherit_doc endLength]
def longEndLength : Nat := 56

@[inherit_doc endLength]
def locatorLength : Nat := 20

/-- The greatest length of a comment, and one more. -/
def commentLimit : Nat := 65536

/-- The place of the record at the end.  Without a comment it is the last of all, else the last that
is marked. -/
def endPlace? (data : ByteArray) : Option Nat :=
  let last := data.size - endLength
  if data.size < endLength then none
  else if isMarked data last 5 6 && number data (data.size - 2) 2 = 0 then some last
  else
    let lowest := last - commentLimit
    match (List.range' lowest (data.size - lowest)).reverse.find? fun place =>
      isMarked data place 5 6 with
    | some place => if place + endLength ≤ data.size then some place else none
    | none => none

/-- A directory: where it starts, how long it is, and what is to be added to the places in it. -/
structure Directory where
  start : Nat
  size : Nat
  shift : Int

/-- The directory of a size and a place that ends at a place. -/
def Directory.endingAt (stop size place : Nat) : Except Fault Directory :=
  if stop < size then refuse .directoryPlace
  else .ok ⟨stop - size, size, (stop - size : Int) - place⟩

/-- Whether there is a second record in front of the record at a place. -/
def hasLongEnd (data : ByteArray) (place : Nat) : Except Fault Bool := do
  let locator := place - locatorLength
  if place < locatorLength || !isMarked data locator 6 7 then return false
  if number data (locator + 4) 4 ≠ 0 || 1 < number data (locator + 16) 4 then refuse .severalDisks
  if locator < longEndLength then refuse .notZip
  return isMarked data (locator - longEndLength) 6 6

/-- The directory of an archive. -/
def directory (data : ByteArray) : Except Fault Directory := do
  match endPlace? data with
  | none => refuse .notZip
  | some place =>
      if ← hasLongEnd data place then
        let long := place - locatorLength - longEndLength
        Directory.endingAt long (number data (long + 40) 8) (number data (long + 48) 8)
      else Directory.endingAt place (number data (place + 12) 4) (number data (place + 16) 4)

/-! ### Entries -/

/-- An entry of a directory. -/
structure Entry where
  listed : Text
  flags : Nat
  method : Nat
  sum : Nat
  packed : Nat
  size : Nat
  place : Int

/-- The name of the file: what is listed up to a null character. -/
def Entry.name (e : Entry) : Text := e.listed.takeWhile (· ≠ .char '\x00')

/-- Whether a flag is set. -/
def hasFlag (flags bit : Nat) : Bool := flags / 2 ^ bit % 2 = 1

/-- The text of a name; one of the flags tells how it is written. -/
def nameOf (flags : Nat) (octets : List UInt8) : Except Fault Text :=
  if hasFlag flags 11 then (Text.Utf8.decode octets).map Text.ofChars
    else .ok (CodePage.text octets)

/-- A number of eight octets at the front of a field, and what follows it. -/
def longNumber (name : String) (field : List UInt8) : Except Fault (Nat × List UInt8) :=
  if (field.take 8).length < 8 then refuse (.longField name)
  else .ok (Unpacking.littleEndian (field.take 8), field.drop 8)

/-- The greatest number of four octets, which stands for one that needs more of them. -/
def isLong (n : Nat) : Bool := n = 0xFFFFFFFF

/-- An entry with the numbers from a field for those that need more than four octets. -/
def Entry.lengthened (e : Entry) (field : List UInt8) : Except Fault Entry := do
  let (size, field) ←
    if isLong e.size || e.size =
      0xFFFFFFFFFFFFFFFF then longNumber "File size" field else pure (e.size, field)
  let (packed, field) ← if isLong e.packed then longNumber "Compress size" field
    else pure (e.packed, field)
  if e.place = 0xFFFFFFFF then
    let (place, _) ← longNumber "Header offset" field
    return { e with size, packed, place }
  return { e with size, packed }

/-- An entry with what its extra fields tell. -/
def Entry.extended : (fuel : Nat) → Entry → List UInt8 → Except Fault Entry
  | 0, e, _ => .ok e
  | fuel + 1, e, extra => do
      if (extra.take 4).length < 4 then return e
      let kind := Unpacking.littleEndian (extra.take 2)
      let length := Unpacking.littleEndian ((extra.drop 2).take 2)
      if extra.length < length + 4 then refuse (.extraField kind length)
      let e ← if kind = 1 then e.lengthened ((extra.drop 4).take length) else pure e
      e.extended fuel (extra.drop (4 + length))

/-- The length of an entry without its name, its extra fields and its comment. -/
def entryLength : Nat := 46

/-- The greatest version, in tenths, of the rules for archives. -/
def versionLimit : Nat := 63

/-- The entries of a directory from a place on. -/
def entriesFrom (data : ByteArray) (shift : Int) : (fuel place : Nat) → Except Fault (List Entry)
  | 0, _ => .ok []
  | fuel + 1, place => do
      if data.size ≤ place then return []
      if data.size < place + entryLength then refuse .directoryEnds
      if !isMarked data place 1 2 then refuse .directoryMark
      let flags := number data (place + 8) 2
      let nameEnd := place + entryLength + number data (place + 28) 2
      let extraEnd := nameEnd + number data (place + 30) 2
      let listed ← nameOf flags (between data (place + entryLength) nameEnd)
      let version := number data (place + 6) 1
      if versionLimit < version then refuse (.version version)
      let extra := between data nameEnd extraEnd
      let e : Entry := {
        listed, flags
        method := number data (place + 10) 2
        sum := number data (place + 16) 4
        packed := number data (place + 20) 4
        size := number data (place + 24) 4
        place := number data (place + 42) 4 }
      let e ← e.extended (extra.length + 1) extra
      return { e with place := e.place + shift }
        :: (← entriesFrom data shift fuel (extraEnd + number data (place + 32) 2))

/-- The entries of the directory of an archive. -/
def entries (data : ByteArray) : Except Fault (List Entry) := do
  let d ← directory data
  let listed := octetsBetween data d.start (d.start + d.size)
  entriesFrom listed d.shift (listed.size + 1) 0

/-! ### Files -/

/-- The length of the header of a file without its name and its extra fields. -/
def headerLength : Nat := 30

/-- Where the content of a file starts, behind its header. -/
def contentPlace (data : ByteArray) (e : Entry) : Except Fault Nat := do
  if e.place < 0 then refuse .headerPlace
  let place := e.place.toNat
  if placeLimit ≤ place then throw (.packed .placeTooLarge)
  if data.size < place + headerLength then refuse .headerEnds
  if !isMarked data place 3 4 then refuse .headerMark
  let nameEnd := place + headerLength + number data (place + 26) 2
  let found := between data (place + headerLength) nameEnd
  if hasFlag e.flags 5 then refuse .patched
  if hasFlag e.flags 6 then refuse .strongEncryption
  if (← nameOf (number data (place + 6) 2) found) ≠ e.listed then refuse (.otherName e.listed found)
  if hasFlag e.flags 0 then refuse (.encrypted e.name)
  return nameEnd + number data (place + 28) 2

/-- LZMA data behind their properties. -/
def lzma : Unpacking Unit := do
  let _ ← Unpacking.octets 2
  let length ← Unpacking.number 2
  let fields ← Unpacking.octets length
  if ← Unpacking.isAtEnd then Unpacking.refuse .ended
  match fields with
  | first :: dictionary =>
      match Lzma.Properties.ofOctet? first with
      | some p =>
          if dictionary.length ≠ 4 then Unpacking.refuse .badOptions
          Lzma.chunk p (Unpacking.littleEndian dictionary) ⟨none, true⟩
      | none => Unpacking.refuse .badOptions
  | [] => Unpacking.refuse .badOptions

/-- Octets as they are, which may go on behind their end. -/
def stored : Unpacking Unit := fun c =>
  .error .ended { c with written := c.octets }

/-- How the methods of packing are undone. -/
def method? : Nat → Option (Unpacking Unit)
  | 0 => some stored
  | 8 => some inflate
  | 12 => some Bzip.stream
  | 14 => some lzma
  | _ => none

/-- The content of the file of an entry.  Packed data that are to go on count for what they hold so
far, unless there are less of them than announced. -/
def content (data : ByteArray) (e : Entry) : Except Fault (List UInt8) := do
  let start ← contentPlace data e
  match method? e.method with
  | none => refuse .method
  | some unpack =>
      let packed := octetsBetween data start (start + e.packed)
      let isCut := packed.size < e.packed
      if isCut && packed.size = 0 then refuse .ends
      let c := Contents.ofUnpacking unpack packed
      match c.problem with
      | none => pure ()
      | some .ended => if isCut && c.octets.size < e.size then refuse .ends
      | some problem => throw (.packed problem)
      let octets := between c.octets 0 e.size
      if (Checksum.crc32 octets).toNat ≠ e.sum then refuse (.sum e.name)
      return octets

end Annealing.Zip
