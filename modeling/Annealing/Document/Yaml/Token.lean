import Annealing.Document.Yaml.Scalar

/-!
# Document — YAML tokens

A YAML text is a sequence of tokens.  Some of them are written, others follow from the layout: a
collection in block style begins with its first item and ends where the indentation falls back.

That a scalar is the key of an entry shows only at the colon behind it.  So every token that may
start a key is remembered with its number (`PendingKey`), and when the colon comes, the token `key`
and the start of a new collection are put in before it.  A pending key lapses at the end of its line
and after 1024 characters; where the layout demands a key, that is refused.

`Tokens.ofText` gives the tokens of a text, and what stops their division if something does.
Whoever reads the tokens meets that problem only when nothing else is left.  A token that may yet
turn out to start a key is not given before that is settled.
-/

namespace Annealing.Yaml

/-- What a directive says. -/
inductive Directive where
  | version (major : Nat)
  | tagHandle (handle stem : String)
  | other
deriving DecidableEq

/-- A unit of a YAML text. -/
inductive Token where
  | directive (d : Directive)
  | documentStart
  | documentEnd
  | blockSequence
  | blockMapping
  | blockEnd
  | flowSequence
  | flowSequenceEnd
  | flowMapping
  | flowMappingEnd
  | flowEntry
  | blockEntry
  | key
  | value
  | alias (name : String)
  | anchor (name : String)
  | tag (handle : Option String) (suffix : String)
  | scalar (text : Text) (isPlain : Bool)
deriving DecidableEq

/-! ### Directives, names and tags -/

/-- A name, behind which a character of a class or the end must follow. -/
def takeName (follow : Char → Bool) (c : Cursor) : Except Fault (String × Cursor) :=
  let (name, c) := c.takeRun isNameChar
  if name.isEmpty || !endsOr follow c.rest then .error .yaml else .ok (String.ofList name, c)

/-- The digits of a version. -/
def takeDigits (c : Cursor) : Except Fault (Nat × Cursor) :=
  let (digits, c) := c.takeRun Char.isDigit
  if digits.isEmpty then .error .yaml
  else if digits.length > Numeral.digitLimit then .error (.tooManyDigits digits.length)
  else .ok (Numeral.valueOf digits, c)

/-- A tag handle: an exclamation mark alone, or a name between two of them. -/
def takeHandle (c : Cursor) : Except Fault (String × Cursor) :=
  match c.rest with
  | '!' :: ' ' :: _ => .ok ("!", c.advance)
  | '!' :: _ =>
      let (name, after) := c.advance.takeRun isNameChar
      match after.rest with
      | '!' :: _ => .ok (String.ofList ('!' :: name ++ ['!']), after.advance)
      | _ => .error .yaml
  | _ => .error .yaml

/-- Whether a character may stand in a tag. -/
def isTagChar (c : Char) : Bool :=
  c.isAlphanum || "-;/?:@&=+$,_.!~*'()[]%".toList.contains c

/-- The octets of the escapes from here on. -/
def takeOctets : (fuel : Nat) → (before : List UInt8) → Cursor → Except Fault (List UInt8 × Cursor)
  | 0, before, c => .ok (before.reverse, c)
  | fuel + 1, before, c =>
      match c.rest with
      | '%' :: a :: b :: _ =>
          match hexNumber? [a, b] with
          | some n => takeOctets fuel (UInt8.ofNat n :: before) (c.advanceBy 3)
          | none => .error .yaml
      | '%' :: _ => .error .yaml
      | _ => .ok (before.reverse, c)

/-- The text of a tag, with its escapes resolved. -/
def takeTagText : (fuel : Nat) → (before : List Char) → Cursor → Except Fault (String × Cursor)
  | 0, _, _ => .error .yaml
  | fuel + 1, before, c => do
      let (run, c) := c.takeRun fun ch => isTagChar ch && ch ≠ '%'
      let before := run.reverse ++ before
      if startsWith (· = '%') c.rest then
        let (octets, c) ← takeOctets c.bound [] c
        match String.fromUTF8? (ByteArray.mk octets.toArray) with
        | some s => takeTagText fuel (s.toList.reverse ++ before) c
        | none => throw .yaml
      else if before.isEmpty then throw .yaml
      else return (String.ofList before.reverse, c)

/-- The text of a tag from here on. -/
def tagText (c : Cursor) : Except Fault (String × Cursor) :=
  takeTagText c.bound [] c

/-- A directive; `c` is the place behind its mark. -/
def takeDirective (c : Cursor) : Except Fault (Directive × Cursor) := do
  let (name, c) ← takeName isSpaceOrBreak c
  if name = "YAML" then
    let (major, c) ← takeDigits c.skipSpaces
    if !startsWith (· = '.') c.rest then throw .yaml
    let (_, c) ← takeDigits c.advance
    if !endsOr isSpaceOrBreak c.rest then throw .yaml
    return (.version major, ← c.finishLine)
  else if name = "TAG" then
    let (handle, c) ← takeHandle c.skipSpaces
    if !startsWith (· = ' ') c.rest then throw .yaml
    let (stem, c) ← tagText c.skipSpaces
    if !endsOr isSpaceOrBreak c.rest then throw .yaml
    return (.tagHandle handle stem, ← c.finishLine)
  else return (.other, ← (c.skipRun (!isBreak ·)).finishLine)

/-- Whether a character may follow an alias or an anchor. -/
def followsName (c : Char) : Bool :=
  isWhite c || "?:,]\x7d%@\x60".toList.contains c

/-- A tag: in full between angle brackets, an exclamation mark alone, or with a handle. -/
def takeTag (c : Cursor) : Except Fault (Token × Cursor) := do
  let (token, c) ←
    match c.rest with
    | '!' :: '<' :: _ => do
        let (suffix, c) ← tagText (c.advanceBy 2)
        if !startsWith (· = '>') c.rest then throw .yaml
        pure (Token.tag none suffix, c.advance)
    | '!' :: rest =>
        if endsOr isWhite rest then pure (Token.tag none "!", c.advance)
        else if (rest.takeWhile (!isSpaceOrBreak ·)).contains '!' then do
          let (handle, c) ← takeHandle c
          let (suffix, c) ← tagText c
          pure (Token.tag (some handle) suffix, c)
        else do
          let (suffix, c) ← tagText c.advance
          pure (Token.tag (some "!") suffix, c)
    | _ => throw .yaml
  if !endsOr isSpaceOrBreak c.rest then throw .yaml
  return (token, c)

/-! ### The sequence of tokens -/

/-- A token that may turn out to start a key. -/
structure PendingKey where
  /-- The number of the token. -/
  token : Nat
  /-- Whether the layout demands a key here. -/
  required : Bool
  index : Nat
  line : Nat
  column : Nat

/-- Where the division into tokens stands. -/
structure Lexing where
  cursor : Cursor
  /-- The tokens found so far, the last one first, and how many they are. -/
  tokens : List Token
  count : Nat
  /-- The number of brackets that are open. -/
  flow : Nat
  /-- The column of the innermost block collection, −1 outside all. -/
  indent : Int
  /-- The columns of the collections around it. -/
  outer : List Int
  /-- Whether a key may start here. -/
  keyAllowed : Bool
  /-- The pending keys, each with the number of brackets open at it. -/
  pending : List (Nat × PendingKey)

namespace Lexing

/-- The start of a text.  A byte order mark there is skipped. -/
def start (text : List Char) : Lexing :=
  let cursor := Cursor.start text
  { cursor := if startsWith (· = '\uFEFF') text then cursor.advance else cursor
    tokens := [], count := 0, flow := 0, indent := -1, outer := [], keyAllowed :=
      true, pending := [] }

/-- Adds a token. -/
def push (s : Lexing) (t : Token) : Lexing :=
  { s with tokens := t :: s.tokens, count := s.count + 1 }

/-- Adds a token of `n` characters. -/
def pushSigns (s : Lexing) (t : Token) (n : Nat) : Lexing :=
  { s.push t with cursor := s.cursor.advanceBy n }

/-- Ends the block collections whose column is beyond the given one. -/
def unwind (column : Int) (s : Lexing) : Lexing :=
  if s.flow ≠ 0 then s else go s.outer s
where
  /-- Ends collections as long as there are any around. -/
  go : List Int → Lexing → Lexing
    | [], s => s
    | around :: outer, s =>
        if s.indent > column then go outer { s.push .blockEnd with indent := around, outer }
        else s

/-- Starts a block collection at a column, unless one has started there already. -/
def indentTo (column : Int) (s : Lexing) : Bool × Lexing :=
  if s.indent < column then (true, { s with indent := column, outer := s.indent :: s.outer })
  else (false, s)

/-- Drops the pending keys that have lapsed; refused if one of them is required. -/
def dropLapsed (s : Lexing) : Except Fault Lexing := do
  let lapsed := fun (k : PendingKey) => k.line ≠ s.cursor.line || s.cursor.index - k.index > 1024
  if s.pending.any fun p => lapsed p.2 && p.2.required then throw .yaml
  return { s with pending := s.pending.filter fun p => !lapsed p.2 }

/-- Drops the pending key inside the innermost brackets; refused if it is required. -/
def dropPending (s : Lexing) : Except Fault Lexing :=
  match s.pending.lookup s.flow with
  | none => .ok s
  | some k =>
      if k.required then .error .yaml
      else .ok { s with pending := s.pending.filter (·.1 != s.flow) }

/-- Remembers the next token as one that may start a key. -/
def savePending (s : Lexing) : Except Fault Lexing := do
  if s.keyAllowed then
    let s ← s.dropPending
    let key : PendingKey :=
      { token := s.count
        required := s.flow = 0 && s.indent = s.cursor.column
        index := s.cursor.index, line := s.cursor.line, column := s.cursor.column }
    return { s with pending := (s.flow, key) :: s.pending }
  else return s

/-- Puts a token in before the token of a number. -/
def insertAt (s : Lexing) (number : Nat) (t : Token) : Lexing :=
  { s with tokens := s.tokens.insertIdx (s.count - number) t, count := s.count + 1 }

/-- Skips white space and comments.  A new line allows a key outside brackets. -/
def skipBlanks : Nat → Lexing → Lexing
  | 0, s => s
  | fuel + 1, s =>
      let c := s.cursor.skipSpaces.skipComment
      match c.takeBreak? with
      | some (_, c) =>
          skipBlanks fuel { s with cursor := c, keyAllowed := s.keyAllowed || s.flow = 0 }
      | none => { s with cursor := c }

/-- A mark between documents. -/
def documentMark (s : Lexing) (t : Token) : Except Fault Lexing := do
  let s ← (s.unwind (-1)).dropPending
  return { s with keyAllowed := false }.pushSigns t 3

/-- An opening bracket. -/
def openBracket (s : Lexing) (t : Token) : Except Fault Lexing := do
  let s ← s.savePending
  return { s with flow := s.flow + 1, keyAllowed := true }.pushSigns t 1

/-- A closing bracket, which may lack its opening one. -/
def closeBracket (s : Lexing) (t : Token) : Except Fault Lexing := do
  let s ← s.dropPending
  if s.flow = 0 then throw .yaml
  return { s with flow := s.flow - 1, keyAllowed := false }.pushSigns t 1

/-- A comma inside brackets. -/
def comma (s : Lexing) : Except Fault Lexing := do
  let s ← { s with keyAllowed := true }.dropPending
  return s.pushSigns .flowEntry 1

/-- Starts a block collection here unless inside brackets, where a key must be allowed. -/
def startBlock (s : Lexing) (t : Token) : Except Fault Lexing :=
  if s.flow ≠ 0 then .ok s
  else if !s.keyAllowed then .error .yaml
  else
    let (isNew, s) := s.indentTo s.cursor.column
    .ok (if isNew then s.push t else s)

/-- A hyphen before an item. -/
def hyphen (s : Lexing) : Except Fault Lexing := do
  let s ← s.startBlock .blockSequence
  let s ← { s with keyAllowed := true }.dropPending
  return s.pushSigns .blockEntry 1

/-- A question mark before a key. -/
def questionMark (s : Lexing) : Except Fault Lexing := do
  let s ← s.startBlock .blockMapping
  let s ← { s with keyAllowed := s.flow = 0 }.dropPending
  return s.pushSigns .key 1

/-- A colon behind a key. -/
def colon (s : Lexing) : Except Fault Lexing := do
  match s.pending.lookup s.flow with
  | some k =>
      let s := { s with pending := s.pending.filter (·.1 != s.flow) }
      let s := s.insertAt k.token .key
      let s :=
        if s.flow = 0 then
          let (isNew, s) := s.indentTo k.column
          if isNew then s.insertAt k.token .blockMapping else s
        else s
      return { s with keyAllowed := false }.pushSigns .value 1
  | none =>
      let s ← s.startBlock .blockMapping
      let s ← { s with keyAllowed := s.flow = 0 }.dropPending
      return s.pushSigns .value 1

/-- A token that may start a key and is given with the place behind it. -/
def node (s : Lexing) (take : Cursor → Except Fault (Token × Cursor)) : Except Fault Lexing := do
  let s ← s.savePending
  let (t, c) ← take s.cursor
  return { s.push t with cursor := c, keyAllowed := false }

/-- A plain scalar; one that ends at the start of a line allows a key there. -/
def plainScalar (s : Lexing) : Except Fault Lexing := do
  let s ← s.savePending
  let (atLineStart, text, c) := plain (s.flow ≠ 0) (s.indent + 1) s.cursor
  return { s.push (.scalar (Text.ofChars text) true) with cursor := c, keyAllowed := atLineStart }

/-- A block scalar. -/
def blockScalar (s : Lexing) (fold : Bool) : Except Fault Lexing := do
  let s ← { s with keyAllowed := true }.dropPending
  let (text, c) ← block fold s.indent s.cursor
  return { s.push (.scalar (Text.ofChars text) false) with cursor := c }

/-- Whether a plain scalar may start with this character, the rest following it. -/
def startsPlain (inFlow : Bool) (c : Char) (rest : List Char) : Bool :=
  if isWhite c then false
  else if "-?:,[]\x7b\x7d#&*!|>'\"%@\x60".toList.contains c then
    !endsOr isWhite rest && (c = '-' || (!inFlow && (c = '?' || c = ':')))
  else true

/-- The next token, at a place behind all white space. -/
def next (s : Lexing) (c : Char) (rest : List Char) : Except Fault Lexing :=
  let inFlow : Bool := s.flow ≠ 0
  let whole := c :: rest
  let atMargin : Bool := s.cursor.column = 0
  if atMargin && c = '%' then do
    let s ← (s.unwind (-1)).dropPending
    let (d, c) ← takeDirective s.cursor.advance
    return { s.push (.directive d) with cursor := c, keyAllowed := false }
  else if atMargin && isSeparator '-' whole then s.documentMark .documentStart
  else if atMargin && isSeparator '.' whole then s.documentMark .documentEnd
  else if c = '[' then s.openBracket .flowSequence
  else if c = '{' then s.openBracket .flowMapping
  else if c = ']' then s.closeBracket .flowSequenceEnd
  else if c = '}' then s.closeBracket .flowMappingEnd
  else if c = ',' then s.comma
  else if c = '-' && endsOr isWhite rest then s.hyphen
  else if c = '?' && (inFlow || endsOr isWhite rest) then s.questionMark
  else if c = ':' && (inFlow || endsOr isWhite rest) then s.colon
  else if c = '*' then
    s.node fun c => do let (name, c) ← takeName followsName c.advance; return (.alias name, c)
  else if c = '&' then
    s.node fun c => do let (name, c) ← takeName followsName c.advance; return (.anchor name, c)
  else if c = '!' then s.node takeTag
  else if c = '|' && !inFlow then s.blockScalar false
  else if c = '>' && !inFlow then s.blockScalar true
  else if c = '\'' || c = '"' then
    s.node fun p => do let (text, p) ← quoted c p; return (.scalar text false, p)
  else if startsPlain inFlow c rest then s.plainScalar
  else .error .yaml

/-- The tokens that can be given before a further one is found: none of them may yet start a key. -/
def settled (s : Lexing) : List Token :=
  let open? := fun (k : PendingKey) => k.line = s.cursor.line && s.cursor.index - k.index ≤ 1024
  let waiting := (s.pending.filter fun p => open? p.2).map fun p => p.2.token
  s.tokens.reverse.take (waiting.foldl min s.count)

end Lexing

/-- The tokens of a text, and what stops their division if something does. -/
structure Tokens where
  list : List Token
  fault : Option Fault

namespace Lexing

/-- All further tokens. -/
def finish : Nat → Lexing → Tokens
  | 0, s => ⟨s.tokens.reverse, none⟩
  | fuel + 1, s =>
      let step : Except Fault (Lexing × Bool) := do
        let s ← (skipBlanks s.cursor.bound s).dropLapsed
        match s.cursor.rest with
        | [] => return (← (s.unwind (-1)).dropPending, true)
        | c :: rest => return (← (s.unwind s.cursor.column).next c rest, false)
      match step with
      | .error f => ⟨s.settled, some f⟩
      | .ok (s, true) => ⟨s.tokens.reverse, none⟩
      | .ok (s, false) => finish fuel s

end Lexing

/-- Whether a character may stand in a YAML text. -/
def isAllowed (c : Char) : Bool :=
  let n := c.toNat
  n = 0x9 || n = 0xA || n = 0xD || (0x20 ≤ n && n ≤ 0x7E) || n = 0x85
    || (0xA0 ≤ n && n ≤ 0xFFFD) || 0x10000 ≤ n

/-- The tokens of a text. -/
def Tokens.ofText (text : List Char) : Tokens :=
  if text.all isAllowed then (Lexing.start text).finish (text.length + 1) else ⟨[], some .yaml⟩

end Annealing.Yaml
