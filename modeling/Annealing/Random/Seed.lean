import Annealing.Number.Power

/-!
# Random — spreading a seed

A seed is a natural number of any size.  Before it starts a generator it is spread over four words
of 64 bits, so that seeds which differ in one bit start generators that have nothing in common.

The words of the seed enter a pool of four words of 32 bits (`Seed.pool`).  `Hasher.hash` scrambles
a word with a multiplier that changes after every use, and `mix` joins two words.  Every word of the
pool is mixed into every other, then each further word of the seed into all four.  The pool is drawn
on twice to fill the eight halves of the result (`Seed.words`).
-/

namespace Annealing.Seed

/-- A scrambler of words: its key, and the factor by which the key grows at every use. -/
structure Hasher where
  key : UInt32
  factor : UInt32

/-- Scrambles a word. -/
def Hasher.hash (h : Hasher) (word : UInt32) : UInt32 × Hasher :=
  let key := h.key * h.factor
  let mixed := (word ^^^ h.key) * key
  (mixed ^^^ (mixed >>> 16), { h with key })

/-- The scrambler that fills the pool. -/
def entering : Hasher := ⟨0x43b0d7e5, 0x931e8875⟩

/-- The scrambler that draws on the pool. -/
def leaving : Hasher := ⟨0x8b51f9dd, 0x58f38ded⟩

/-- Joins two words. -/
def mix (x y : UInt32) : UInt32 :=
  let r := 0xca01f9dd * x - 0x4973f715 * y
  r ^^^ (r >>> 16)

/-- The words of a number, the least significant first.  Zero has none. -/
def digits (seed : Nat) : List UInt32 :=
  if seed = 0 then [] else UInt32.ofNat seed :: digits (seed / 2 ^ 32)
termination_by seed
decreasing_by omega

/-- A pool, and the scrambler that filled it. -/
abbrev Filling := Array UInt32 × Hasher

/-- Mixes a scrambled word into one place of the pool. -/
def stir (word : UInt32) (f : Filling) (place : Nat) : Filling :=
  let (hashed, hasher) := f.2.hash word
  (f.1.modify place fun old => mix old hashed, hasher)

/-- Mixes a word of the pool into the three others. -/
def stirFrom (f : Filling) (source : Nat) : Filling :=
  ([0, 1, 2, 3].filter (· != source)).foldl (fun f place => stir (f.1.getD source 0) f place) f

/-- The pool of a seed. -/
def pool (seed : Nat) : Array UInt32 :=
  let words := digits seed
  let first : Filling := [0, 1, 2, 3].foldl (fun f i =>
    let (hashed, hasher) := f.2.hash (words.getD i 0)
    (f.1.push hashed, hasher)) (#[], entering)
  let stirred := [0, 1, 2, 3].foldl stirFrom first
  ((words.drop 4).foldl (fun f word => [0, 1, 2, 3].foldl (stir word) f) stirred).1

/-- The eight halves of the words of a seed. -/
def halves (seed : Nat) : List UInt32 :=
  let source := pool seed
  ((List.range 8).foldl (fun (acc : List UInt32 × Hasher) i =>
    let (hashed, hasher) := acc.2.hash (source.getD (i % 4) 0)
    (acc.1 ++ [hashed], hasher)) ([], leaving)).1

/-- The words of 64 bits made of halves, the lower half first. -/
def pairUp : List UInt32 → List UInt64
  | low :: high :: rest => (low.toUInt64 ||| high.toUInt64 <<< 32) :: pairUp rest
  | _ => []

/-- The four words that start a generator. -/
def words (seed : Nat) : List UInt64 :=
  pairUp (halves seed)

end Annealing.Seed
