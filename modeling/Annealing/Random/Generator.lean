import Annealing.Fault
import Annealing.Random.Seed

/-!
# Random — the generator

The state of the generator is a number of 128 bits that steps by a linear congruence; the increment
tells the sequences of different seeds apart.  A word of output is the exclusive or of the two
halves of the state, rotated by its six highest bits.

* `next64` and `next32` are the next word and the next half of a word.  The second half of a word is
  kept for the next demand for a half; other demands do not touch it.
* `uniform` is a double in `[0, 1)`, a multiple of `2 ^ -53`.
* `below n` is a natural number below `n`, all equally likely: a draw is multiplied by `n` and the
  high part taken, and the few draws that would favour some results are drawn again.
* `pair n` is an ordered pair of different numbers below `n`.
-/

namespace Annealing

/-- The state of a generator. -/
structure Generator where
  state : BitVec 128
  increment : BitVec 128
  /-- The half of a word that waits for the next demand. -/
  half : Option UInt32
deriving DecidableEq

namespace Generator

/-- The factor of the congruence. -/
def factor : BitVec 128 := 0x2360ed051fc65da44385df649fccf645#128

/-- One step of the congruence. -/
def step (g : Generator) : Generator :=
  { g with state := g.state * factor + g.increment }

/-- The output at a state. -/
def output (state : BitVec 128) : UInt64 :=
  let word : BitVec 64 := (state >>> 64).setWidth 64 ^^^ state.setWidth 64
  ⟨word.rotateRight (state >>> 122).toNat⟩

/-- The next word. -/
def next64 (g : Generator) : UInt64 × Generator :=
  let g := g.step
  (output g.state, g)

/-- The next half of a word. -/
def next32 (g : Generator) : UInt32 × Generator :=
  match g.half with
  | some half => (half, { g with half := none })
  | none =>
      let (word, g) := g.next64
      (word.toUInt32, { g with half := some (word >>> 32).toUInt32 })

/-- The generator of a natural number. -/
def ofNat (seed : Nat) : Generator :=
  match Seed.words seed with
  | [w0, w1, w2, w3] =>
      let start : BitVec 128 := w0.toBitVec ++ w1.toBitVec
      let increment : BitVec 128 := (w2.toBitVec ++ w3.toBitVec) <<< 1 ||| 1#128
      let g : Generator := step ⟨0, increment, none⟩
      step { g with state := g.state + start }
  | _ => ⟨0, 1, none⟩

/-- The generator of a seed, which must not be negative. -/
def ofSeed (seed : Int) : Except Fault Generator :=
  if seed < 0 then .error .negativeSeed else .ok (ofNat seed.toNat)

/-- A double in `[0, 1)`. -/
def uniform (g : Generator) : Float × Generator :=
  let (word, g) := g.next64
  ((word >>> 11).toFloat.scaleB (-53), g)

/-- How often a draw that favours some results is drawn again.  Each is one with a chance below one
half, so the last is never reached. -/
def redraws : Nat := 1024

/-- Multiplies draws by `n` until one falls on no favoured place: the low part of the product, below
`modulus`, must not be below `threshold`. -/
def drawFair (draw : Generator → Nat × Generator) (modulus threshold n : Nat) :
    Nat → Generator → Nat × Generator
  | 0, g => (fun r => (r.1 * n / modulus, r.2)) (draw g)
  | tries + 1, g =>
      let (word, g) := draw g
      if word * n % modulus < threshold then drawFair draw modulus threshold n tries g
      else (word * n / modulus, g)

/-- The next half of a word, as a number. -/
def natural32 (g : Generator) : Nat × Generator :=
  (fun r => (r.1.toNat, r.2)) g.next32

/-- The next word, as a number. -/
def natural64 (g : Generator) : Nat × Generator :=
  (fun r => (r.1.toNat, r.2)) g.next64

/-- A number below `n`.  Nothing is drawn if there is only one, and halves of words suffice up to
`2 ^ 32`. -/
def below (n : Nat) (g : Generator) : Nat × Generator :=
  if n ≤ 1 then (0, g)
  else if n ≤ 2 ^ 32 then drawFair natural32 (2 ^ 32) ((2 ^ 32 - n) % n) n redraws g
  else drawFair natural64 (2 ^ 64) ((2 ^ 64 - n) % n) n redraws g

/-- An ordered pair of different numbers below `n`, for `n` at least two.  The second of two draws
that fall together moves to the last number, which the first could not be; a third draw orders
them. -/
def pair (n : Nat) (g : Generator) : (Nat × Nat) × Generator :=
  let (a, g) := g.below (n - 1)
  let (b, g) := g.below n
  let b := if b = a then n - 1 else b
  let (order, g) := g.below 2
  (if order = 1 then (a, b) else (b, a), g)

end Generator

end Annealing
