import Annealing.Number.Numeral
import Annealing.Packed.Bzip
import Annealing.Packed.Contents
import Annealing.Packed.Gzip
import Annealing.Packed.Xz
import Annealing.Text.Utf8

/-!
# Packed — archives of blocks

Files stand one after another, each in whole blocks of 512 octets behind a header of one block, and
a block of zeros ends the archive.  A header holds names and numbers, and a sum of its octets.
Names that are too long, and other things that do not fit into a header, stand in the content of a
header of their own in front of it.  The whole archive may be packed.

* `Tape.opened` is the archive in data: they are taken for packed in each way, and for not packed,
  until a first header can be read.
* `Tape.members` are the files of an archive.
* `Tape.content` is the content of the only file.
-/

namespace Annealing.Tape

/-- The length of a block. -/
def blockLength : Nat := 512

/-- The length of the blocks that some octets take. -/
def blocksLength (size : Nat) : Nat := (size + (blockLength - 1)) / blockLength * blockLength

/-! ### Fields -/

/-- Some octets of a block. -/
def field (block : List UInt8) (start length : Nat) : List UInt8 := (block.drop start).take length

/-- What stands in front of the first zero. -/
def beforeZero (octets : List UInt8) : List UInt8 := octets.takeWhile (· ≠ 0)

/-- The text of a name. -/
def nameOf (octets : List UInt8) : Text := Text.Utf8.decodeAll (beforeZero octets)

/-- The number of octal digits; single underscores may stand between them. -/
def octalDigits? : (before : Nat) → List Char → Option Nat
  | before, [] => some before
  | before, '_' :: c :: rest =>
      if c.isDigit && c < '8' then octalDigits? (8 * before + (c.toNat - 48)) rest else none
  | before, c :: rest =>
      if c.isDigit && c < '8' then octalDigits? (8 * before + (c.toNat - 48)) rest else none

/-- Octal digits without the mark of their base. -/
def withoutMark : List Char → List Char
  | '0' :: c :: rest =>
      if c = 'o' ∨
        c = 'O' then (match rest with | '_' :: more => more | _ => rest) else '0' :: c :: rest
  | cs => cs

/-- The number of octal digits behind a sign, or of nothing. -/
def octal? (text : List Char) : Option Int :=
  let text := Text.strip Text.isBlank text
  let (negative, body) := Numeral.splitSign text
  let digits := withoutMark body
  if text.isEmpty then some 0
  else if digits.isEmpty || digits.head? = some '_' then none
  else (octalDigits? 0 digits).map fun n => if negative then -(n : Int) else n

/-- The number of octets, the highest first. -/
def bigEndian (octets : List UInt8) : Nat :=
  octets.foldl (fun n o => 256 * n + o.toNat) 0

/-- The number in a field.  The first octet tells whether it is one of octets, and then whether it
is negative; else it is one of octal digits. -/
def number (octets : List UInt8) : Except HeaderProblem Int :=
  match octets with
  | 0x80 :: rest => .ok (bigEndian rest)
  | 0xFF :: rest => .ok (bigEndian rest - (256 ^ rest.length : Nat))
  | _ =>
      let front := beforeZero octets
      match if front.any (0x80 ≤ ·) then none
        else octal? (front.map fun o => Char.ofNat o.toNat) with
      | some n => .ok n
      | none => .error .badField

/-! ### Headers -/

/-- The kinds of what a header stands in front of. -/
inductive Kind where
  | plain
  | hardLink
  | softLink
  | directory
  /-- Something that has no content. -/
  | device
  | longName
  | longLink
  /-- Properties of the next file, or of all that follow. -/
  | properties (ofAll : Bool)
deriving DecidableEq, Repr

/-- The kind that an octet spells.  What is not known is a plain file. -/
def Kind.ofOctet (o : UInt8) : Kind :=
  match Char.ofNat o.toNat with
  | '1' => .hardLink
  | '2' => .softLink
  | '3' | '4' | '6' => .device
  | '5' => .directory
  | 'L' => .longName
  | 'K' => .longLink
  | 'x' | 'X' => .properties false
  | 'g' => .properties true
  | _ => .plain

/-- What a header tells. -/
structure Header where
  name : Text
  link : Text
  size : Nat
  kind : Kind

/-- The sum of octets, and that of octets of which the highest bit is a sign. -/
def sums (octets : List UInt8) : Int × Int :=
  octets.foldl (fun (a, b) o => (a + o.toNat, b + o.toInt8.toInt)) (0, 0)

/-- Whether a sum is that of a block with blanks in the place of the sum. -/
def hasSum (block : List UInt8) (sum : Int) : Bool :=
  let (a, b) := sums (block.take 148 ++ block.drop 156)
  sum = a + 256 || sum = b + 256

/-- A slash. -/
def slash : Symbol := .char '/'

/-- A name without the slashes at its end. -/
def withoutSlashes (name : Text) : Text := (name.reverse.dropWhile (· = slash)).reverse

/-- The name of a file in a directory. -/
def within (around name : Text) : Text := if around.isEmpty then name else around ++ slash :: name

/-- The header in a block. -/
def Header.ofBlock (block : List UInt8) : Except HeaderProblem Header := do
  if block.isEmpty then throw .empty
  if block.length ≠ blockLength then throw .truncated
  if block.all (· = 0) then throw .zeros
  if !hasSum block (← number (field block 148 8)) then throw .badSum
  for (start, length) in [(100, 8), (108, 8), (116, 8)] do
    let _ ← number (field block start length)
  let size ← number (field block 124 12)
  for (start, length) in [(136, 12), (329, 8), (337, 8)] do
    let _ ← number (field block start length)
  let name := nameOf (field block 0 100)
  let letter := block.getD 156 0
  let kind := if letter = 0 && name.getLast? = some slash then .directory else Kind.ofOctet letter
  let name := if kind = .directory then withoutSlashes name else name
  let around := if kind = .longName || kind = .longLink then [] else nameOf (field block 345 155)
  return { name := within around name, link := nameOf (field block 157 100),
           size := size.toNat, kind }

/-! ### Properties -/

/-- Properties and their names. -/
abbrev Properties := List (Text × Text)

/-- A property and the length of all that spells it: the length in decimal digits, a blank, a name,
the sign of equality and a text. -/
def property? (octets : List UInt8) : Option (Nat × Text × Text) :=
  let digits := octets.takeWhile fun o => 0x30 ≤ o && o ≤ 0x39
  let length := Numeral.valueOf (digits.map fun o => Char.ofNat o.toNat)
  match digits, octets.drop digits.length with
  | _ :: _, 0x20 :: rest =>
      let name := rest.takeWhile (· ≠ 0x3D)
      let skipped := digits.length + 1 + name.length + 1
      if name.isEmpty || rest.length ≤ name.length then none
      else
        let text := (octets.take (length - 1)).drop skipped
        some (length, Text.Utf8.decodeAll name, Text.Utf8.decodeAll text)
  | _, _ => none

/-- The properties in octets. -/
def properties : (fuel : Nat) → List UInt8 → Except HeaderProblem Properties
  | 0, _ => .ok []
  | fuel + 1, octets =>
      match property? octets with
      | none => .ok []
      | some (0, _) => .error .badField
      | some (length, named) => do return named :: (← properties fuel (octets.drop length))

/-- A file of an archive: where its content starts, and where the next header stands. -/
structure Member where
  name : Text
  link : Text
  kind : Kind
  size : Nat
  start : Nat
  next : Nat

/-- Where the next header stands behind a file. -/
def Member.following (m : Member) : Nat :=
  if m.kind = .plain then m.start + blocksLength m.size else m.start

/-- A file with a property. -/
def Member.withProperty (m : Member) (property : Text × Text) : Member :=
  match String.ofList property.1.chars with
  | "path" => { m with name := withoutSlashes property.2 }
  | "linkpath" => { m with link := property.2 }
  | "size" => { m with size := ((Numeral.integer property.2.chars).toOption.getD 0).toNat }
  | _ => m

/-- A file with properties. -/
def Member.withProperties (m : Member) (properties : Properties) : Member :=
  let m := properties.foldl withProperty m
  if m.kind = .directory then { m with name := withoutSlashes m.name } else m

/-! ### Files -/

/-- Why there is no further file. -/
inductive Halt where
  | header (problem : HeaderProblem)
  /-- The problem is in a header that another one announced. -/
  | announced (problem : HeaderProblem)
  | data (problem : PackProblem)

/-- Where the problem of a header is one of an announced one. -/
def Halt.behindAnother : Halt → Halt
  | .header problem => .announced problem
  | h => h

/-- Octets of an archive. -/
def octets (c : Contents) (start count : Nat) : Except Halt (List UInt8) :=
  (c.read start count).mapError .data

/-- The file whose header stands at a place, and the properties of all that follow. -/
def memberAt (c : Contents) :
    (fuel : Nat) → Properties → (place : Nat) → Except Halt (Member × Properties)
  | 0, _, _ => .error (.header .empty)
  | fuel + 1, shared, place => do
      let h ← (Header.ofBlock (← octets c place blockLength)).mapError .header
      let start := place + blockLength
      let stop := start + blocksLength h.size
      let announced (shared : Properties) :=
        (memberAt c fuel shared stop).mapError Halt.behindAnother
      match h.kind with
      | .longName =>
          let name := nameOf (← octets c start (stop - start))
          let (m, shared) ← announced shared
          return ({ m with name := if m.kind = .directory then withoutSlashes name else name },
            shared)
      | .longLink =>
          let link := nameOf (← octets c start (stop - start))
          let (m, shared) ← announced shared
          return ({ m with link }, shared)
      | .properties ofAll =>
          let text ← octets c start (stop - start)
          let own ← (properties (text.length + 1) text).mapError .header
          if ofAll then announced (shared ++ own)
          else
            let (m, shared) ← announced shared
            let all := shared ++ own
            let m := m.withProperties all
            let isSized := all.any fun p => p.1 = Text.ofString "size"
            return ({ m with next := if isSized then m.following else m.next }, shared)
      | kind =>
          let m : Member :=
            { name := h.name, link := h.link, kind, size := h.size, start, next := start }
          return ({ m with next := m.following }.withProperties shared, shared)

/-- The count of headers that an archive cannot exceed, and one more. -/
def bound (c : Contents) : Nat := c.octets.size / blockLength + 1

/-- The next file, whose header stands at a place; none at the end of the archive.  What is no
header ends it, unless it is the first. -/
def memberOrEnd (c : Contents) (shared : Properties) (place : Nat) :
    Except PackProblem (Option (Member × Properties)) :=
  match memberAt c (bound c) shared place with
  | .ok found => .ok (some found)
  | .error (.header .zeros) => .ok none
  | .error (.header .empty) => if place = 0 then .error (.tape .empty) else .ok none
  | .error (.header problem) => if place = 0 then .error (.tape (.header problem)) else .ok none
  | .error (.announced problem) => .error (.tape (.header problem))
  | .error (.data (.deflate problem)) => .error (.tape (.deflated problem))
  | .error (.data problem) => .error problem

/-- A file and those behind it. -/
def membersFrom (c : Contents) :
    (fuel : Nat) → Option (Member × Properties) → Except PackProblem (List Member)
  | _, none => .ok []
  | 0, _ => .ok []
  | fuel + 1, some (m, shared) => do
      if m.next ≠ m.start && (← c.read (m.next - 1) 1).isEmpty then throw (.tape .ends)
      return m :: (← membersFrom c fuel (← memberOrEnd c shared m.next))

/-! ### Archives -/

/-- An archive: its octets and its first file, if it has one. -/
structure Archive where
  contents : Contents
  first : Option (Member × Properties)

/-- The ways of packing. -/
inductive Way where
  | gzip | bzip | lzma | none
deriving DecidableEq, Repr

/-- What data hold that are packed in a way. -/
def Way.contents (w : Way) (data : ByteArray) : Contents :=
  match w with
  | .gzip => .ofUnpacking Gzip.unpack data
  | .bzip => .ofUnpacking Bzip.unpack data
  | .lzma => .ofUnpacking Xz.unpack data
  | .none => .plain data

/-- What a problem tells of data that may be packed in a way; none if it is not looked at any
further. -/
def Way.verdict? : Way → PackProblem → Option TapeProblem
  | _, .tape problem => some problem
  | .gzip, .notGzip _ | .gzip, .unknownMethod | .gzip, .checksum .. | .gzip, .badLength =>
      some .notGzip
  | .bzip, .badStream | .bzip, .ended => some .notBzip
  | .lzma, .unknownFormat | .lzma, .badOptions | .lzma, .corrupt | .lzma, .ended => some .notLzma
  | _, _ => .none

/-- The archive in data that may be packed in a way, or else what this tells of them. -/
def Way.open? (w : Way) (data : ByteArray) : Except PackProblem (Archive ⊕ TapeProblem) :=
  let c := w.contents data
  match memberOrEnd c [] 0 with
  | .ok first => .ok (.inl ⟨c, first⟩)
  | .error problem =>
      match w.verdict? problem with
      | some verdict => .ok (.inr verdict)
      | .none => .error problem

/-- The archive in data. -/
def opened (data : ByteArray) : Except PackProblem Archive := do
  match ← Way.gzip.open? data with
  | .inl a => return a
  | .inr gzip =>
  match ← Way.bzip.open? data with
  | .inl a => return a
  | .inr bzip =>
  match ← Way.lzma.open? data with
  | .inl a => return a
  | .inr lzma =>
  match ← Way.none.open? data with
  | .inl a => return a
  | .inr plain => throw (.tape (.noneFits gzip bzip lzma plain))

/-- The files of an archive. -/
def members (a : Archive) : Except PackProblem (List Member) :=
  membersFrom a.contents (bound a.contents) a.first

/-! ### Contents of files -/

/-- The parts of a name between slashes. -/
def parts (name : Text) : List Text :=
  (name.splitBy fun a b => a ≠ slash && b ≠ slash).filter (· ≠ [slash])

/-- The parts of a name without points and with every `..` carried out as far as possible, the last
one first. -/
def settledParts (isRooted : Bool) (ps : List Text) : List Text :=
  ps.foldl (fun before p =>
    if p = Text.ofString "." then before
    else if p ≠ Text.ofString ".." then p :: before
    else match before with
      | [] => if isRooted then [] else [p]
      | last :: more => if last = p then p :: before else more) []

/-- How many slashes stand at the front of a name, as far as they count: two do not count for one,
and more do. -/
def rootMark (name : Text) : Nat :=
  let slashes := (name.takeWhile (· = slash)).length
  if slashes = 2 then 2 else min slashes 1

/-- Whether two names lead to the same place. -/
def leadsTo (name other : Text) : Bool :=
  rootMark name = rootMark other
    && settledParts (rootMark name ≠ 0)
    (parts name) = settledParts (rootMark other ≠ 0) (parts other)

/-- The name of the directory around a file. -/
def around (name : Text) : Text :=
  let front := (name.reverse.dropWhile (· ≠ slash)).reverse
  if front.all (· = slash) then front else withoutSlashes front

/-- The name that a link leads to. -/
def Member.target (m : Member) : Text :=
  if m.kind = .hardLink then m.link
  else
    let place := around m.name
    if m.link.isEmpty then place else within place m.link

/-- The content of the only file of an archive. -/
def content (c : Contents) (m : Member) : Except PackProblem (List UInt8) := do
  if withoutSlashes m.name ≠ m.name then throw (.tape (.noSuchFile m.name))
  match m.kind with
  | .plain =>
      let octets ← c.read m.start m.size
      if octets.length < m.size then throw (.tape .ends)
      return octets
  | .hardLink => throw (.tape (.brokenLink m.target))
  | .softLink =>
      throw (.tape (if leadsTo m.target m.name then .endlessLink else .brokenLink m.target))
  | _ => throw (.tape .noContents)

end Annealing.Tape
