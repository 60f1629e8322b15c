import Annealing.Fault

/-!
# Storage — paths

A path is a list of names, from the root on.  A name may be `..`, which stands for the directory
around; `Path.join` leaves it as it is and `Path.resolve` takes it away together with the name
before it.  A text that starts with exactly two slashes leads to the same place as one that starts
with a single slash, but the path keeps both until it is resolved.

Files have octets for names.  A half of a surrogate pair is the name of no octets, except that the
last 128 of them each stand for an octet that is no character (`Path.isNameless`).

* `Path.join` goes on from a path along a text, or starts anew if the text starts at the root.
* `Path.text` writes a path.
* `Path.suffix` is the end of the last name from its last point on.
-/

namespace Annealing

/-- A path from the root. -/
structure Path where
  names : List Text
  /-- Whether the root is written with two slashes. -/
  twoSlashes : Bool
deriving DecidableEq, Repr

namespace Path

/-- The root. -/
def root : Path := ⟨[], false⟩

/-- The parts of a text between slashes. -/
def pieces : Text → List Text
  | [] => [[]]
  | s :: rest =>
      if s = .char '/' then [] :: pieces rest
      else
        match pieces rest with
        | piece :: more => (s :: piece) :: more
        | [] => [[s]]

/-- The names in a text: what stands between slashes, but for nothing and for the single point. -/
def namesIn (text : Text) : List Text :=
  (pieces text).filter fun p => !p.isEmpty && p != Text.ofString "."

/-- The path that a text leads to from a path. -/
def join (base : Path) (text : Text) : Path :=
  match (text.takeWhile (· = .char '/')).length with
  | 0 => { base with names := base.names ++ namesIn text }
  | slashes => ⟨namesIn text, slashes = 2⟩

/-- The text of a path. -/
def text (p : Path) : Text :=
  Text.ofString (if p.twoSlashes then "//" else "/") ++
    (p.names.intersperse (Text.ofString "/")).flatten

/-- The path around a path. -/
def parent (p : Path) : Path := { p with names := p.names.dropLast }

/-- The name of the directory around. -/
def upward : Text := Text.ofString ".."

/-- Takes a name in; `before` are the names so far, the last one first. -/
def stepInto (before : List Text) (name : Text) : List Text :=
  if name = upward then before.drop 1 else name :: before

/-! ### Names that no file can have -/

/-- Whether a symbol is the name of no octets. -/
def isNameless : Symbol → Bool
  | .char _ => false
  | s => !(0xDC80 ≤ s.code && s.code ≤ 0xDCFF)

/-- What is wrong with the text of a path if no file can have it: the first symbols without octets,
together with the halves behind them, or else a null character. -/
def refusal? (text : Text) : Option Fault :=
  match text.findIdx? isNameless, text.find? isNameless with
  | some first, some s =>
      some (.halves s.code first (first + ((text.drop first).takeWhile (·.isHalf)).length - 1))
  | _, _ => if text.contains (.char '\x00') then some .nullInPath else none

/-- The text of a path whose names stand from the last to the first. -/
def textOfReverse (names : List Text) : Text := text ⟨names.reverse, false⟩

/-- The names with every `..` carried out, each looked at together with those before it; refused at
the first that no file can have. -/
def settle : (before : List Text) → List Text → Except Fault (List Text)
  | before, [] => .ok before.reverse
  | before, name :: rest =>
      match if name = upward then none else refusal? (textOfReverse (name :: before)) with
      | some f => .error f
      | none => settle (stepInto before name) rest

/-- The path with every `..` carried out. -/
def resolve (p : Path) : Except Fault Path := do
  return ⟨← settle [] p.names, false⟩

/-! ### Suffixes -/

/-- The symbols of a name from its last point on, if something stands before and behind the
point. -/
def suffixOf (name : Text) : Text :=
  let behind := name.reverse.takeWhile (· ≠ .char '.')
  if behind.isEmpty ∨ name.length ≤ behind.length + 1 then [] else .char '.' :: behind.reverse

/-- A symbol with a capital letter of ASCII made small. -/
def small : Symbol → Symbol
  | .char c => .char c.toLower
  | s => s

/-- The last name in small letters. -/
def smallName (p : Path) : Text := (p.names.getLast?.getD []).map small

/-- The suffix of the last name, in small letters. -/
def suffix (p : Path) : Text := suffixOf p.smallName

/-- Whether the last name ends in a text, capital or small. -/
def endsIn (p : Path) (ending : String) : Bool :=
  (Text.ofString ending).isSuffixOf p.smallName

end Path

end Annealing
