import Annealing.Packed.Unpack
import Annealing.Storage.Basic
import Annealing.Table.Basic

/-!
# Table — tables in files

A table is read from a text file, which may be packed.  Files whose names tell that they are
columnar, or packed in a way that cannot be undone, are refused before anything looks at them, and a
table without rows is refused too.
-/

namespace Annealing.Table

/-- The suffixes of files that are columnar. -/
def columnarSuffixes : List String := [".parquet", ".pq"]

/-- The ending of the names of files that are packed in a way that cannot be undone. -/
def lockedEnding : String := ".zst"

/-- The octets that a file holds, packed or not. -/
def unpacked (p : Path) (octets : List UInt8) : Except Fault (List UInt8) :=
  match Packing.ofPath? p with
  | some w => w.unpack p octets
  | none => .ok octets

/-- The table in the file at a path. -/
def load {m : Type → Type} [Monad m] [MonadExceptOf Fault m] (S : Storage m) (p : Path) :
    m Table := do
  if columnarSuffixes.any fun ending => p.suffix == Text.ofString ending then
    throw .unreadableFormat
  if p.endsIn lockedEnding then throw .unreadableFormat
  let octets ← MonadExcept.ofExcept (unpacked p (← S.read p))
  let t ← MonadExcept.ofExcept (ofOctets octets)
  if t.height = 0 then throw (.emptyTable p.text)
  return t

end Annealing.Table
