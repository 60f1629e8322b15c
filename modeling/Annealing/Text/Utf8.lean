import Annealing.Fault

/-!
# Text — UTF-8

A text is stored as octets.  A character takes one to four of them: a first octet that says how many
follow, and the others, each with six bits of the code.  What may follow at once is narrower after
some first octets, so that no character has two spellings and no half of a surrogate pair has one.

`Utf8.encode` writes a text.  `Utf8.decode` reads one octet at a time and refuses a text at the
first octet that cannot stand where it stands, or at its end if a character is not complete there.
`Utf8.characters` are the characters of a text that can be written, one without a half of a
surrogate pair.  `Utf8.decodeAll` refuses nothing: an octet that belongs to no character is read as
one of the last 128 halves.
-/

namespace Annealing.Text.Utf8

/-! ### Writing -/

/-- The octet with the lowest six bits of a code, as it stands behind a first octet. -/
def following (code : Nat) : UInt8 :=
  UInt8.ofNat (0x80 + code % 0x40)

/-- The octets of a character. -/
def encodeChar (c : Char) : List UInt8 :=
  let n := c.toNat
  if n < 0x80 then [UInt8.ofNat n]
  else if n < 0x800 then [UInt8.ofNat (0xC0 + n / 0x40), following n]
  else if n < 0x10000 then [UInt8.ofNat (0xE0 + n / 0x1000), following (n / 0x40), following n]
  else
    [UInt8.ofNat (0xF0 + n / 0x40000), following (n / 0x1000), following (n / 0x40), following n]

/-- The octets of a text. -/
def encode (text : List Char) : List UInt8 :=
  text.flatMap encodeChar

/-- The characters of a text; refused at the first halves of surrogate pairs. -/
def characters (text : Text) : Except Fault (List Char) :=
  match text.findIdx? (·.isHalf), text.find? (·.isHalf) with
  | some first, some s =>
      .error (.halves s.code first (first + ((text.drop first).takeWhile (·.isHalf)).length - 1))
  | _, _ => .ok text.chars

/-! ### Reading -/

/-- A character that is not complete. -/
structure Pending where
  /-- The first octet, and its place in the text. -/
  first : UInt8
  start : Nat
  /-- The bits read so far. -/
  bits : Nat
  /-- How many octets are still owed. -/
  owed : Nat
  /-- The least and the greatest octet that may come next. -/
  low : UInt8
  high : UInt8
deriving Repr

/-- What a first octet of several begins; none if the octet cannot be one. -/
def pending? (start : Nat) (b : UInt8) : Option Pending :=
  if b < 0xC2 then none
  else if b < 0xE0 then some ⟨b, start, b.toNat - 0xC0, 1, 0x80, 0xBF⟩
  else if b < 0xF0 then
    some ⟨b, start, b.toNat - 0xE0, 2, if b = 0xE0 then 0xA0 else 0x80,
      if b = 0xED then 0x9F else 0xBF⟩
  else if b < 0xF5 then
    some ⟨b, start, b.toNat - 0xF0, 3, if b = 0xF0 then 0x90 else 0x80,
      if b = 0xF4 then 0x8F else 0xBF⟩
  else none

/-- The text of octets from a place on.  `before` are the characters read so far, the last one
first. -/
def decodeFrom :
    (place : Nat) → (before : List Char) → Option Pending → List UInt8 → Except Fault (List Char)
  | _, before, none, [] => .ok before.reverse
  | place, _, some p, [] => .error (.utf8 .unexpectedEnd p.first p.start (place - 1))
  | place, before, none, b :: rest =>
      if b < 0x80 then decodeFrom (place + 1) (Char.ofNat b.toNat :: before) none rest
      else
        match pending? place b with
        | none => .error (.utf8 .badStart b place place)
        | some p => decodeFrom (place + 1) before (some p) rest
  | place, before, some p, b :: rest =>
      if p.low ≤ b ∧ b ≤ p.high then
        let bits := p.bits * 0x40 + b.toNat % 0x40
        if p.owed ≤ 1 then decodeFrom (place + 1) (Char.ofNat bits :: before) none rest
        else
          decodeFrom (place + 1) before
            (some { p with bits, owed := p.owed - 1, low := 0x80, high := 0xBF }) rest
      else .error (.utf8 .badContinuation p.first p.start (place - 1))

/-- The text that octets hold. -/
def decode (octets : List UInt8) : Except Fault (List Char) :=
  decodeFrom 0 [] none octets

/-- The character at the front of octets, and how many of them it takes. -/
def first? (octets : List UInt8) : Option (Char × Nat) :=
  [1, 2, 3, 4].findSome? fun count =>
    match decode (octets.take count) with
    | .ok [c] => some (c, count)
    | _ => none

/-- The half that an octet is read as if it belongs to no character. -/
def halfOf (o : UInt8) : Symbol :=
  .half (Fin.ofNat 0x800 (0xDC00 - Symbol.firstHalf + o.toNat))

/-- The text of octets behind the first `skip` of them. -/
def decodeAllFrom : (skip : Nat) → List UInt8 → Text
  | _, [] => []
  | skip + 1, _ :: rest => decodeAllFrom skip rest
  | 0, o :: rest =>
      match first? (o :: rest) with
      | some (c, count) => .char c :: decodeAllFrom (count - 1) rest
      | none => halfOf o :: decodeAllFrom 0 rest

/-- The text of octets, whatever they are. -/
def decodeAll (octets : List UInt8) : Text := decodeAllFrom 0 octets

end Annealing.Text.Utf8
