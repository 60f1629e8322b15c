import Annealing.Number.Power

/-!
# Packed — digests

A digest of 256 bits, in which the octets are mixed in blocks of 64: `Digest.sha256`.
-/

namespace Annealing.Digest

/-- The words of the rounds. -/
def rounds : List UInt32 :=
  [0x428a2f98, 0x71374491, 0xb5c0fbcf, 0xe9b5dba5, 0x3956c25b, 0x59f111f1, 0x923f82a4, 0xab1c5ed5,
   0xd807aa98, 0x12835b01, 0x243185be, 0x550c7dc3, 0x72be5d74, 0x80deb1fe, 0x9bdc06a7, 0xc19bf174,
   0xe49b69c1, 0xefbe4786, 0x0fc19dc6, 0x240ca1cc, 0x2de92c6f, 0x4a7484aa, 0x5cb0a9dc, 0x76f988da,
   0x983e5152, 0xa831c66d, 0xb00327c8, 0xbf597fc7, 0xc6e00bf3, 0xd5a79147, 0x06ca6351, 0x14292967,
   0x27b70a85, 0x2e1b2138, 0x4d2c6dfc, 0x53380d13, 0x650a7354, 0x766a0abb, 0x81c2c92e, 0x92722c85,
   0xa2bfe8a1, 0xa81a664b, 0xc24b8b70, 0xc76c51a3, 0xd192e819, 0xd6990624, 0xf40e3585, 0x106aa070,
   0x19a4c116, 0x1e376c08, 0x2748774c, 0x34b0bcb5, 0x391c0cb3, 0x4ed8aa4a, 0x5b9cca4f, 0x682e6ff3,
   0x748f82ee, 0x78a5636f, 0x84c87814, 0x8cc70208, 0x90befffa, 0xa4506ceb, 0xbef9a3f7, 0xc67178f2]

/-- The state before the first block. -/
def start : Array UInt32 :=
  #[0x6a09e667, 0xbb67ae85, 0x3c6ef372, 0xa54ff53a, 0x510e527f, 0x9b05688c, 0x1f83d9ab, 0x5be0cd19]

/-- The bits of a word turned to the right. -/
def turned (x : UInt32) (n : UInt32) : UInt32 := (x >>> n) ||| (x <<< (32 - n))

/-- The words of a block and those that follow from them. -/
def schedule (block : List UInt32) : Array UInt32 :=
  (List.range 48).foldl (fun w i =>
    let a := w.getD (i + 1) 0
    let b := w.getD (i + 14) 0
    let s := turned a 7 ^^^ turned a 18 ^^^ (a >>> 3)
    let t := turned b 17 ^^^ turned b 19 ^^^ (b >>> 10)
    w.push (w.getD i 0 + s + w.getD (i + 9) 0 + t)) block.toArray

/-- One round. -/
def round (s : Array UInt32) (word : UInt32) : Array UInt32 :=
  let at' := fun i => s.getD i 0
  let e := at' 4
  let a := at' 0
  let t := at' 7 + (turned e 6 ^^^ turned e 11 ^^^ turned e 25) +
    ((e &&& at' 5) ^^^ (~~~e &&& at' 6)) + word
  let u := (turned a 2 ^^^ turned a 13 ^^^ turned a 22) +
    ((a &&& at' 1) ^^^ (a &&& at' 2) ^^^ (at' 1 &&& at' 2))
  #[t + u, a, at' 1, at' 2, at' 3 + t, e, at' 5, at' 6]

/-- The state behind a block. -/
def mix (s : Array UInt32) (block : List UInt32) : Array UInt32 :=
  let mixed := (rounds.zip (schedule block).toList).foldl (fun s r => round s (r.1 + r.2)) s
  (s.zip mixed).map fun p => p.1 + p.2

/-- Words of four octets, the highest first. -/
def words : List UInt8 → List UInt32
  | a :: b :: c :: d :: rest =>
      ((a.toUInt32 <<< 24) ||| (b.toUInt32 <<< 16) |||
        (c.toUInt32 <<< 8) ||| d.toUInt32) :: words rest
  | _ => []

/-- The states behind so many blocks. -/
def mixAll : (count : Nat) → Array UInt32 → List UInt32 → Array UInt32
  | 0, s, _ => s
  | count + 1, s, ws => mixAll count (mix s (ws.take 16)) (ws.drop 16)

/-- A number in so many octets, the highest first. -/
def bigEndian (width n : Nat) : List UInt8 :=
  ((List.range width).map fun i => UInt8.ofNat (n / 256 ^ i)).reverse

/-- The digest of octets. -/
def sha256 (octets : List UInt8) : List UInt8 :=
  let zeros := (119 - octets.length % 64) % 64
  let filled := octets ++ 0x80 :: List.replicate zeros 0 ++ bigEndian 8 (8 * octets.length)
  (mixAll (filled.length / 64) start (words filled)).toList.flatMap fun w => bigEndian 4 w.toNat

end Annealing.Digest
