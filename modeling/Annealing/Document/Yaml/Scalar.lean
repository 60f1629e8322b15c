import Annealing.Document.Json.Reader
import Annealing.Document.Yaml.Cursor

/-!
# Document — the texts of YAML scalars

A scalar is a text in one of four styles.

* A *plain* scalar has no marks around it and ends before a comment, before a colon with white space
  behind it and, inside brackets, before the signs that brackets use.
* A scalar between single quotes holds a quote that is written twice; one between double quotes
  knows escapes.
* A *block* scalar takes the indented lines below its header, either as they are or folded.

Where a scalar other than a block goes over several lines, a single end of a line stands for a space
and further ones for themselves.

Each function takes the place where the scalar starts and gives its text and the place behind it.
Escapes alone can name halves of surrogate pairs, and two of them stay two symbols.
-/

namespace Annealing.Yaml

open Cursor

/-- Characters of a scalar and the place behind them. -/
abbrev Scanned := List Char × Cursor

/-- A break as it counts between two parts of a scalar: a single one is a space, and of several the
first is dropped. -/
def folded (first : Char) (further : List Char) : List Char :=
  if first ≠ '\n' then first :: further
  else if further.isEmpty then [' ']
  else further

/-! ### Plain scalars -/

/-- Whether a character has a meaning of its own inside brackets. -/
def isFlowSign (c : Char) : Bool := c = ',' || c = '[' || c = ']' || c = '{' || c = '}'

/-- The length of a part of a plain scalar without white space. -/
def plainLength (flow : Bool) : List Char → Nat
  | [] => 0
  | c :: rest =>
      let ends := isWhite c
        || (c = ':' && endsOr (fun d => isWhite d || (flow && isFlowSign d)) rest)
        || (flow && (isFlowSign c || c = '?'))
      if ends then 0 else plainLength flow rest + 1

/-- The breaks and spaces from here on, breaks collected in reverse.  The flag says whether they end
before a line that separates documents. -/
def plainBreaks : (fuel : Nat) → (before : List Char) → Cursor → Bool × List Char × Cursor
  | 0, before, c => (false, before, c)
  | fuel + 1, before, c =>
      let c := c.skipSpaces
      match c.takeBreak? with
      | none => (false, before, c)
      | some (b, c) =>
          if isSeparator '-' c.rest || isSeparator '.' c.rest then (true, b :: before, c)
          else plainBreaks fuel (b :: before) c

/-- What stands between two parts of a plain scalar: nothing if the scalar has ended.  The flag says
whether a line has ended here. -/
def plainGap (c : Cursor) : Bool × Scanned :=
  let (spaces, c) := c.takeRun (· = ' ')
  match c.takeBreak? with
  | none => (false, spaces, c)
  | some (first, c) =>
      if isSeparator '-' c.rest || isSeparator '.' c.rest then (true, [], c)
      else
        let (ended, further, c) := plainBreaks c.bound [] c
        (true, if ended then [] else folded first further.reverse, c)

/-- The parts of a plain scalar from here on.  `before` holds what is read, in reverse, and `gap`
what stands before the next part. -/
def plainFrom (flow : Bool) (indent : Int) :
    (fuel : Nat) → (before gap : List Char) → (atLineStart : Bool) → Cursor → Bool × Scanned
  | 0, before, _, atLineStart, c => (atLineStart, before.reverse, c)
  | fuel + 1, before, gap, atLineStart, c =>
      let length := if startsWith (· = '#') c.rest then 0 else plainLength flow c.rest
      if length = 0 then (atLineStart, before.reverse, c)
      else
        let before := (c.rest.take length).reverse ++ (gap.reverse ++ before)
        let (atLineStart, gap, c) := plainGap (c.advanceBy length)
        if gap.isEmpty || startsWith (· = '#') c.rest || (!flow && (c.column : Int) < indent) then
          (atLineStart, before.reverse, c)
        else plainFrom flow indent fuel before gap atLineStart c

/-- A plain scalar.  Outside brackets its further lines start at least at the column `indent`.  The
flag says whether it ends at the start of a line. -/
def plain (flow : Bool) (indent : Int) (c : Cursor) : Bool × Scanned :=
  plainFrom flow indent c.bound [] [] false c

/-! ### Quoted scalars -/

/-- The breaks from here on with the white space before and between them; refused where a line
separates documents. -/
def quotedBreaks : (fuel : Nat) → (before : List Char) → Cursor → Except Fault Scanned
  | 0, before, c => .ok (before.reverse, c)
  | fuel + 1, before, c =>
      if isSeparator '-' c.rest || isSeparator '.' c.rest then .error .yaml
      else
        let c := c.skipRun fun ch => ch = ' ' || ch = '\t'
        match c.takeBreak? with
        | some (b, c) => quotedBreaks fuel (b :: before) c
        | none => .ok (before.reverse, c)

/-- White space inside a quoted scalar. -/
def quotedSpaces (c : Cursor) : Except Fault Scanned := do
  let (spaces, c) := c.takeRun fun ch => ch = ' ' || ch = '\t'
  match c.takeBreak? with
  | some (first, c) =>
      let (further, c) ← quotedBreaks c.bound [] c
      return (folded first further, c)
  | none => if c.rest.isEmpty then throw .yaml else return (spaces, c)

/-- The character that a letter after a backslash stands for. -/
def escaped? : Char → Option Char
  | '0' => some '\x00'
  | 'a' => some '\x07'
  | 'b' => some '\x08'
  | 't' | '\t' => some '\t'
  | 'n' => some '\n'
  | 'v' => some '\x0b'
  | 'f' => some '\x0c'
  | 'r' => some '\r'
  | 'e' => some '\x1b'
  | ' ' => some ' '
  | '"' => some '"'
  | '\\' => some '\\'
  | '/' => some '/'
  | 'N' => some '\u0085'
  | '_' => some '\u00a0'
  | 'L' => some '\u2028'
  | 'P' => some '\u2029'
  | _ => none

/-- How many hexadecimal digits follow a letter after a backslash. -/
def codeWidth? : Char → Option Nat
  | 'x' => some 2
  | 'u' => some 4
  | 'U' => some 8
  | _ => none

/-- The number that hexadecimal digits write. -/
def hexNumber? (digits : List Char) : Option Nat :=
  digits.foldlM (fun n d => (Json.hexValue? d).map (16 * n + ·)) 0

/-- The symbol of a code. -/
def symbolOfCode (code : Nat) : Except Fault Symbol :=
  match Symbol.ofCode? code with
  | some s => .ok s
  | none => .error (.noSuchCharacter code)

/-- What an escape stands for; `c` is the place behind the backslash. -/
def escape (c : Cursor) : Except Fault (Text × Cursor) :=
  match c.rest with
  | [] => .error .yaml
  | letter :: rest =>
      match escaped? letter, codeWidth? letter with
      | some ch, _ => .ok ([.char ch], c.advance)
      | none, some width =>
          let digits := rest.take width
          match if digits.length = width then hexNumber? digits else none with
          | some code => do return ([← symbolOfCode code], c.advanceBy (width + 1))
          | none => .error .yaml
      | none, none =>
          match c.takeBreak? with
          | some (_, c) => do
              let (breaks, c) ← quotedBreaks c.bound [] c
              return (Text.ofChars breaks, c)
          | none => .error .yaml

/-- Whether a character inside quotes stands for itself. -/
def isOrdinary (c : Char) : Bool :=
  c ≠ '\'' && c ≠ '"' && c ≠ '\\' && !isWhite c

/-- The rest of a quoted scalar; `before` holds what is read, in reverse. -/
def quotedFrom (quote : Char) :
    (fuel : Nat) → (before : Text) → Cursor → Except Fault (Text × Cursor)
  | 0, _, _ => .error .yaml
  | fuel + 1, before, c =>
      match c.rest with
      | [] => .error .yaml
      | ch :: rest =>
          if ch = quote then
            if quote = '\'' && startsWith (· = '\'') rest then
              quotedFrom quote fuel (.char '\'' :: before) (c.advanceBy 2)
            else .ok (before.reverse, c.advance)
          else if isOrdinary ch then
            let (run, c) := c.takeRun isOrdinary
            quotedFrom quote fuel (Text.ofChars run.reverse ++ before) c
          else if isWhite ch then do
            let (gap, c) ← quotedSpaces c
            quotedFrom quote fuel (Text.ofChars gap.reverse ++ before) c
          else if quote = '"' && ch = '\\' then do
            let (text, c) ← escape c.advance
            quotedFrom quote fuel (text.reverse ++ before) c
          else quotedFrom quote fuel (.char ch :: before) c.advance

/-- A scalar between quotes. -/
def quoted (quote : Char) (c : Cursor) : Except Fault (Text × Cursor) :=
  quotedFrom quote c.bound [] c.advance

/-! ### Block scalars -/

/-- What becomes of the breaks at the end of a block scalar: all dropped, one kept, or all kept. -/
inductive Chomping where
  | strip | clip | keep
deriving DecidableEq

/-- The sign for a chomping. -/
def chomping? : List Char → Option Chomping
  | '+' :: _ => some .keep
  | '-' :: _ => some .strip
  | _ => none

/-- The digit for an explicit indentation. -/
def indentDigit? : List Char → Option Nat
  | c :: _ => if c.isDigit then some (c.toNat - 48) else none
  | [] => none

/-- The signs behind the mark of a block scalar, in either order. -/
def blockHeader (c : Cursor) : Except Fault (Chomping × Option Nat × Cursor) := do
  let (chomping, digit, c) ←
    match chomping? c.rest with
    | some chomping =>
        let c := c.advance
        match indentDigit? c.rest with
        | some n => pure (chomping, some n, c.advance)
        | none => pure (chomping, none, c)
    | none =>
        match indentDigit? c.rest with
        | some n =>
            let c := c.advance
            match chomping? c.rest with
            | some chomping => pure (chomping, some n, c.advance)
            | none => pure (.clip, some n, c)
        | none => pure (.clip, none, c)
  if digit = some 0 then throw .yaml
  if !endsOr isSpaceOrBreak c.rest then throw .yaml
  return (chomping, digit, ← c.finishLine)

/-- The blank lines at the start of a block scalar, and the greatest column that their spaces
reach. -/
def blockLead :
    (fuel : Nat) → (before : List Char) → (greatest : Nat) → Cursor → List Char × Nat × Cursor
  | 0, before, greatest, c => (before.reverse, greatest, c)
  | fuel + 1, before, greatest, c =>
      let c := c.skipSpaces
      let greatest := max greatest c.column
      match c.takeBreak? with
      | some (b, c) => blockLead fuel (b :: before) greatest c
      | none => (before.reverse, greatest, c)

/-- The blank lines before a line of a block scalar, and the place in that line at its
indentation. -/
def blockBreaks (indent : Nat) : (fuel : Nat) → (before : List Char) → Cursor → Scanned
  | 0, before, c => (before.reverse, c)
  | fuel + 1, before, c =>
      let c := c.skipIndent indent
      match c.takeBreak? with
      | some (b, c) => blockBreaks indent fuel (b :: before) c
      | none => (before.reverse, c)

/-- The lines of a block scalar from here on: the text in reverse, the last break and the blank
lines behind it. -/
def blockLines (fold : Bool) (indent : Nat) :
    (fuel : Nat) → (before breaks lastBreak : List Char) → Cursor →
    List Char × List Char × List Char × Cursor
  | 0, before, breaks, lastBreak, c => (before, lastBreak, breaks, c)
  | fuel + 1, before, breaks, lastBreak, c =>
      if c.column = indent ∧ !c.rest.isEmpty then
        let flush := !startsWith (fun ch => ch = ' ' || ch = '\t') c.rest
        let (content, c) := c.takeRun (!isBreak ·)
        let before := content.reverse ++ (breaks.reverse ++ before)
        let (lastBreak, c) : List Char × Cursor := match c.takeBreak? with
          | some (b, c) => ([b], c)
          | none => ([], c)
        let (breaks, c) := blockBreaks indent c.bound [] c
        if c.column = indent ∧ !c.rest.isEmpty then
          let joins := fold && lastBreak == ['\n'] && flush
            && !startsWith (fun ch => ch = ' ' || ch = '\t') c.rest
          let between := if joins then (if breaks.isEmpty then [' '] else []) else lastBreak
          blockLines fold indent fuel (between.reverse ++ before) breaks lastBreak c
        else (before, lastBreak, breaks, c)
      else (before, lastBreak, breaks, c)

/-- A block scalar; `fold` says whether its lines are joined, and `parent` is the column of the
collection around it. -/
def block (fold : Bool) (parent : Int) (c : Cursor) : Except Fault Scanned := do
  let (chomping, digit, c) ← blockHeader c.advance
  let least := max 1 (parent + 1).toNat
  let (indent, breaks, c) : Nat × List Char × Cursor := match digit with
    | none =>
        let (breaks, greatest, c) := blockLead c.bound [] 0 c
        (max least greatest, breaks, c)
    | some n =>
        let indent := least + n - 1
        let (breaks, c) := blockBreaks indent c.bound [] c
        (indent, breaks, c)
  let (text, lastBreak, breaks, c) := blockLines fold indent c.bound [] breaks [] c
  let tail := match chomping with
    | .strip => []
    | .clip => lastBreak
    | .keep => lastBreak ++ breaks
  return (text.reverse ++ tail, c)

end Annealing.Yaml
