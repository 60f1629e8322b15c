import Annealing.Packed.Checksum
import Annealing.Report.Row

/-!
# Report — archives of arrays

An archive keeps arrays of numbers as octets.  Every array is a file of its own, named for the
array: a header in plain text that tells the kind of the numbers and the lengths along the axes, and
the numbers, each in eight octets with the lowest first.  The files stand one after another without
compression, each with a checksum, and a directory of them stands at the end.

`Archive.encode` writes an archive.
-/

namespace Annealing.Archive

/-- The lowest octets of a number, the lowest first. -/
def littleEndian : (width : Nat) → Nat → List UInt8
  | 0, _ => []
  | width + 1, n => UInt8.ofNat (n % 256) :: littleEndian width (n / 256)

/-- The octets of ASCII text. -/
def ascii (s : String) : List UInt8 :=
  s.toList.map fun c => UInt8.ofNat c.toNat

/-! ### Arrays -/

/-- The text of the lengths along the axes. -/
def shapeText : List Nat → String
  | [n] => "(" ++ toString n ++ ",)"
  | shape => "(" ++ String.intercalate ", " (shape.map toString) ++ ")"

/-- The kind of the numbers of an array. -/
def kindText : Cells → String
  | .words _ => "<i8"
  | .doubles _ => "<f8"

/-- The octets of the numbers of an array. -/
def numbers : Cells → List UInt8
  | .words xs => xs.flatMap fun n => littleEndian 8 (n % 2 ^ 64).toNat
  | .doubles xs => xs.flatMap fun x => littleEndian 8 x.toBits.toNat

/-- The header of an array, filled up with blanks to a multiple of 64 octets. -/
def header (s : Series) : List UInt8 :=
  let text := "\x7b'descr': '" ++ kindText s.cells ++
    "', 'fortran_order': False, 'shape': " ++ shapeText s.shape
    ++ ", \x7d"
  let length := 10 + text.length + 1
  let blanks := (64 - length % 64) % 64
  let body := ascii (text ++ "".pushn ' ' blanks ++ "\n")
  [0x93] ++ ascii "NUMPY" ++ [1, 0] ++ littleEndian 2 body.length ++ body

/-- The octets of an array. -/
def array (s : Series) : List UInt8 :=
  header s ++ numbers s.cells

/-! ### Files -/

/-- A file of an archive. -/
structure Member where
  name : List UInt8
  octets : List UInt8

/-- What both headers of a file tell: version, flags, method, day, checksum, lengths, and the length
of the name. -/
def description (f : Member) : List UInt8 :=
  littleEndian 2 20 ++ littleEndian 2 0 ++ littleEndian 2 0 ++
    littleEndian 2 0 ++ littleEndian 2 0x21
    ++ littleEndian 4 (Checksum.crc32 f.octets).toNat ++ littleEndian 4 f.octets.length ++
    littleEndian 4 f.octets.length
    ++ littleEndian 2 f.name.length ++ littleEndian 2 0

/-- A file with the header in front of it. -/
def fileText (f : Member) : List UInt8 :=
  littleEndian 4 0x04034B50 ++ description f ++ f.name ++ f.octets

/-- The entry of a file in the directory; `start` is where the file starts. -/
def directoryEntry (start : Nat) (f : Member) : List UInt8 :=
  littleEndian 4 0x02014B50 ++ littleEndian 2 20 ++ description f ++
    littleEndian 2 0 ++ littleEndian 2 0
    ++ littleEndian 2 0 ++ littleEndian 4 0 ++ littleEndian 4 start ++ f.name

/-- The files and the directory of an archive; the first file starts at `start`. -/
def assemble : (start : Nat) → List Member → List UInt8 × List UInt8
  | _, [] => ([], [])
  | start, f :: rest =>
      let text := fileText f
      let (files, directory) := assemble (start + text.length) rest
      (text ++ files, directoryEntry start f ++ directory)

/-- The end of an archive: how many files, and where the directory stands. -/
def ending (count size start : Nat) : List UInt8 :=
  littleEndian 4 0x06054B50 ++ littleEndian 2 0 ++ littleEndian 2 0 ++
    littleEndian 2 count ++ littleEndian 2 count
    ++ littleEndian 4 size ++ littleEndian 4 start ++ littleEndian 2 0

/-- The octets of an archive of arrays. -/
def encode (arrays : List Series) : List UInt8 :=
  let (files, directory) := assemble 0 (arrays.map fun s => ⟨ascii (s.name ++ ".npy"), array s⟩)
  files ++ directory ++ ending arrays.length directory.length files.length

end Annealing.Archive
