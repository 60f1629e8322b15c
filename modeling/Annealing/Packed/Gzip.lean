import Annealing.Packed.Checksum
import Annealing.Packed.Deflate

/-!
# Packed — gzip files

A gzip file is a sequence of members, each with a header, deflated data, a checksum and a length;
zeros may follow a member.  What the file holds are the contents of its members, one after another.
An empty file has no members.
-/

namespace Annealing.Gzip

/-- Reads up to a zero or to the end of the data. -/
def skipText : (fuel : Nat) → Unpacking Unit
  | 0 => return
  | fuel + 1 => do
      if ← Unpacking.isAtEnd then return
      if (← Unpacking.octet) = 0 then return
      skipText fuel

/-- Reads zeros. -/
def skipZeros : (fuel : Nat) → Unpacking Unit
  | 0 => return
  | fuel + 1 => do
      if (← get).octet? = some 0 then
        let _ ← Unpacking.octet
        skipZeros fuel

/-- The first two octets of a member, fewer at the end of the data. -/
def front : Unpacking (List UInt8) := do
  if ← Unpacking.isAtEnd then return []
  let first ← Unpacking.octet
  if ← Unpacking.isAtEnd then return [first]
  return [first, ← Unpacking.octet]

/-- Reads a header behind its first two octets: flags tell whether there are an extra field, a name,
a comment and a checksum. -/
def header : Unpacking Unit := do
  let fixed ← Unpacking.octets 8
  if fixed.headD 0 ≠ 8 then Unpacking.refuse .unknownMethod
  let flags := fixed.getD 1 0
  let fuel ← Unpacking.bound
  if flags &&& 4 ≠ 0 then
    let _ ← Unpacking.octets (← Unpacking.number 2)
  if flags &&& 8 ≠ 0 then skipText fuel
  if flags &&& 16 ≠ 0 then skipText fuel
  if flags &&& 2 ≠ 0 then
    let _ ← Unpacking.octets 2

/-- Checks what a member held, which was written from a place on. -/
def trailer (start : Nat) : Unpacking Unit := do
  let stored ← Unpacking.number 4
  let length ← Unpacking.number 4
  let content ← Unpacking.writtenFrom start
  let computed := (Checksum.crc32 content).toNat
  if stored ≠ computed then Unpacking.refuse (.checksum stored computed)
  if length ≠ content.length % 2 ^ 32 then Unpacking.refuse .badLength

/-- Unpacks the members. -/
def members : (fuel : Nat) → Unpacking Unit
  | 0 => return
  | fuel + 1 => do
      match ← front with
      | [] => return
      | [0x1F, 0x8B] =>
          header
          let start ← Unpacking.size
          inflate
          trailer start
          skipZeros (← Unpacking.bound)
          members fuel
      | other => Unpacking.refuse (.notGzip other)

/-- Unpacks a gzip file. -/
def unpack : Unpacking Unit := do
  members (← Unpacking.bound)

end Annealing.Gzip
