import Annealing.Packed.BitCursor

/-!
# Packed — what packed data hold

Packed data hold octets, and a problem may stand where more of them should follow.  The octets are
unpacked in pieces, each when it is needed, so a problem counts only for those who read so far.  A
problem of a code is found together with the piece in front of it, since the code is read ahead; any
other one is found when the octets in front are used up.

* `Contents.all` are the octets to the end.
* `Contents.read` are the octets of a part, fewer at the end.
-/

namespace Annealing

/-- The octets between two places, as far as there are any. -/
def octetsBetween (data : ByteArray) (start stop : Nat) : ByteArray :=
  if data.size ≤ start then .empty else data.extract start (min stop data.size)

/-- The places in data are less than this. -/
def placeLimit : Nat := 2 ^ 63

/-- Whether a problem is one of a code. -/
def PackProblem.isOfCode : PackProblem → Bool
  | .deflate _ | .badStream | .unknownFormat | .badOptions | .corrupt => true
  | _ => false

/-- What packed data hold. -/
structure Contents where
  octets : ByteArray
  problem : Option PackProblem

namespace Contents

/-- What data hold that are not packed. -/
def plain (octets : ByteArray) : Contents := ⟨octets, none⟩

/-- What is written by unpacking. -/
def ofUnpacking (u : Unpacking Unit) (packed : ByteArray) : Contents :=
  match u (.start packed) with
  | .ok _ c => ⟨c.written, none⟩
  | .error problem c => ⟨c.written, some problem⟩

/-- The count of octets that are unpacked together. -/
def pieceSize : Nat := 8192

/-- Where the piece ends that the octet in front of a place belongs to. -/
def pieceEnd (place : Nat) : Nat := (place + (pieceSize - 1)) / pieceSize * pieceSize

/-- Whether a problem behind the octets counts for those who read up to a place. -/
def reaches (c : Contents) (problem : PackProblem) (stop : Nat) : Bool :=
  if problem.isOfCode then c.octets.size ≤ pieceEnd stop else c.octets.size < stop

/-- Some octets from a place on, fewer at the end.  No place may be beyond the limit. -/
def read (c : Contents) (start count : Nat) : Except PackProblem (List UInt8) :=
  match c.problem.filter fun p => 0 < count && c.reaches p (start + count) with
  | some p => .error p
  | none =>
      if placeLimit ≤ start then .error .placeTooLarge
      else .ok (octetsBetween c.octets start (start + count)).toList

/-- The octets to the end. -/
def all (c : Contents) : Except PackProblem (List UInt8) :=
  match c.problem with
  | some p => .error p
  | none => .ok c.octets.toList

end Contents

end Annealing
