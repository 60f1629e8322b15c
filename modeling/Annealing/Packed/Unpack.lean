import Annealing.Packed.Tape
import Annealing.Packed.Zip
import Annealing.Storage.Path

/-!
# Packed — files that may be packed

The name of a file tells whether its octets are packed, and how.  A packed file holds the octets of
a single one: an archive must have exactly one file.

* `Packing.ofPath?` is the way in which the file at a path is packed.
* `Packing.unpack` unpacks it.
-/

namespace Annealing

/-- The ways in which files are packed. -/
inductive Packing where
  | gzip
  | bzip
  | xz
  | zip
  | tape
deriving DecidableEq, Repr

namespace Packing

/-- The endings of names and what they tell. -/
def endings : List (String × Packing) :=
  [(".tar", .tape), (".tar.gz", .tape), (".tar.bz2", .tape), (".tar.xz", .tape), (".gz", .gzip),
    (".bz2", .bzip), (".zip", .zip), (".xz", .xz)]

/-- How the file at a path is packed; none if it is not. -/
def ofPath? (p : Path) : Option Packing :=
  (endings.find? fun e => p.endsIn e.1).map (·.2)

/-- The octets that data hold. -/
def contentOf (unpacking : Unpacking Unit) (data : ByteArray) : Except Fault (List UInt8) :=
  (Contents.ofUnpacking unpacking data).all.mapError .packed

/-- The only one of the files in the archive at a path. -/
def only {α : Type} (kind : ArchiveKind) (p : Path) (name : α → Text) : List α → Except Fault α
  | [file] => .ok file
  | [] => .error (.noFile kind p.text)
  | files => .error (.severalFiles kind (files.map name))

/-- The octets that a packed file at a path holds. -/
def unpack (w : Packing) (p : Path) (octets : List UInt8) : Except Fault (List UInt8) := do
  let data : ByteArray := ⟨octets.toArray⟩
  match w with
  | .gzip => contentOf Gzip.unpack data
  | .bzip => contentOf Bzip.unpack data
  | .xz => contentOf Xz.unpack data
  | .zip => Zip.content data (← only .zip p Zip.Entry.name (← Zip.entries data))
  | .tape =>
      let a ← (Tape.opened data).mapError .packed
      let m ← only .tape p Tape.Member.name (← (Tape.members a).mapError .packed)
      (Tape.content a.contents m).mapError .packed

end Packing

end Annealing
