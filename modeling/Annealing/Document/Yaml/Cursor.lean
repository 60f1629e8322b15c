import Annealing.Fault

/-!
# Document — a place in a YAML text

The layout of a YAML text carries meaning, so reading it keeps track of line and column.  A `Cursor`
is what is left of a text together with the place where that begins.

A *break* ends a line.  There are four kinds; a carriage return is not among them, since the ends of
lines are unified before a document is read.
-/

namespace Annealing.Yaml

/-- Whether a character ends a line. -/
def isBreak (c : Char) : Bool :=
  c = '\n' || c = '\u0085' || c = '\u2028' || c = '\u2029'

/-- Whether a character is a space or ends a line. -/
def isSpaceOrBreak (c : Char) : Bool := c = ' ' || isBreak c

/-- Whether a character is a space or a tab or ends a line. -/
def isWhite (c : Char) : Bool := c = ' ' || c = '\t' || isBreak c

/-- Whether a character may stand in the name of an anchor or of a directive. -/
def isNameChar (c : Char) : Bool :=
  c.isAlphanum || c = '-' || c = '_'

/-- Whether a text is at its end or goes on with a character of a class. -/
def endsOr (p : Char → Bool) (cs : List Char) : Bool := cs.head?.all p

/-- Whether a text goes on with a character of a class. -/
def startsWith (p : Char → Bool) (cs : List Char) : Bool := cs.head?.any p

/-- Whether a line that starts here separates documents: three hyphens or three points, and then
nothing or white space. -/
def isSeparator (mark : Char) : List Char → Bool
  | a :: b :: c :: rest => a = mark && b = mark && c = mark && endsOr isWhite rest
  | _ => false

/-- What is left of a text of some size, and where it begins. -/
structure Cursor where
  size : Nat
  rest : List Char
  index : Nat
  line : Nat
  column : Nat

namespace Cursor

/-- The start of a text. -/
def start (text : List Char) : Cursor := ⟨text.length, text, 0, 0, 0⟩

/-- More than the number of the characters left. -/
def bound (c : Cursor) : Nat := c.size - c.index + 1

/-- The place behind the next character. -/
def advance (c : Cursor) : Cursor :=
  match c.rest with
  | [] => c
  | ch :: rest =>
      if isBreak ch then { c with rest, index := c.index + 1, line := c.line + 1, column := 0 }
      else { c with
        rest, index := c.index + 1, column := if ch = '\uFEFF' then c.column else c.column + 1 }

/-- The place behind the next `n` characters. -/
def advanceBy : Nat → Cursor → Cursor
  | 0, c => c
  | n + 1, c => advanceBy n c.advance

/-- The characters of a class from here on, and the place behind them. -/
def takeRun (p : Char → Bool) (c : Cursor) : List Char × Cursor :=
  let run := c.rest.takeWhile p
  (run, c.advanceBy run.length)

/-- The place behind the characters of a class. -/
def skipRun (p : Char → Bool) (c : Cursor) : Cursor := (c.takeRun p).2

/-- The place behind the spaces. -/
def skipSpaces (c : Cursor) : Cursor := c.skipRun (· = ' ')

/-- The place behind the spaces before a column. -/
def skipIndent (column : Nat) (c : Cursor) : Cursor :=
  let spaces := (c.rest.takeWhile (· = ' ')).length
  c.advanceBy (min spaces (column - c.column))

/-- The break here, as the character that stands for it in a scalar, and the place behind it. -/
def takeBreak? (c : Cursor) : Option (Char × Cursor) :=
  match c.rest with
  | ch :: _ =>
      if isBreak ch then some (if ch = '\n' || ch = '\u0085' then '\n' else ch, c.advance) else none
  | [] => none

/-- The place behind a break, if one is here. -/
def skipBreak (c : Cursor) : Cursor := (c.takeBreak?.map (·.2)).getD c

/-- The place behind a comment, if one is here. -/
def skipComment (c : Cursor) : Cursor :=
  if startsWith (· = '#') c.rest then c.skipRun (!isBreak ·) else c

/-- The place behind the rest of a line that may hold nothing but spaces and a comment. -/
def finishLine (c : Cursor) : Except Fault Cursor :=
  let c := c.skipSpaces.skipComment
  if endsOr isBreak c.rest then .ok c.skipBreak else .error .yaml

end Cursor

end Annealing.Yaml
