import Annealing.Value.Show

/-!
# Document — writing JSON

`Json.render` writes a value as a JSON text of ASCII characters: every item and every entry on a
line of its own, indented by two blanks for each list or dictionary around it, and empty ones closed
at once.  A tuple is written like a list, and half of a surrogate pair like a character.

Byte strings, sets, dates and points in time cannot be written, nor can anything but a text, a
number, a truth value or null be a key; neither can an integer of too many digits, or a collection
inside itself.  Then the text ends where the value would have stood: a `Draft` is the text so far
and the reason why it ends, if it is cut off.  An integer in a list is written together with what
stands before it, so the text ends before both.
-/

namespace Annealing.Json

/-- A text, and why it is cut off if it is. -/
structure Draft where
  written : List Char
  fault : Option Fault

namespace Draft

/-- A whole text. -/
def ofChars (cs : List Char) : Draft := ⟨cs, none⟩

/-- A text that is cut off before it starts. -/
def cut (f : Fault) : Draft := ⟨[], some f⟩

/-- A text with more behind it, unless it is cut off. -/
def andThen (a b : Draft) : Draft :=
  match a.fault with
  | none => ⟨a.written ++ b.written, b.fault⟩
  | some _ => a

end Draft

/-- An escaped code unit. -/
def unitEscape (unit : Nat) : List Char :=
  '\\' :: 'u' :: Text.hexDigits 4 unit

/-- A character inside quotes. -/
def escape (c : Char) : List Char :=
  if c = '"' then ['\\', '"']
  else if c = '\\' then ['\\', '\\']
  else if c = '\n' then ['\\', 'n']
  else if c = '\r' then ['\\', 'r']
  else if c = '\t' then ['\\', 't']
  else if c = '\x08' then ['\\', 'b']
  else if c = '\x0c' then ['\\', 'f']
  else if 0x20 ≤ c.toNat ∧ c.toNat ≤ 0x7E then [c]
  else if c.toNat < 0x10000 then unitEscape c.toNat
  else
    let rest := c.toNat - 0x10000
    unitEscape (0xD800 + rest / 0x400) ++ unitEscape (0xDC00 + rest % 0x400)

/-- A symbol inside quotes. -/
def escapeSymbol : Symbol → List Char
  | .char c => escape c
  | s => unitEscape s.code

/-- A text between quotes. -/
def quoted (t : Text) : List Char :=
  '"' :: t.flatMap escapeSymbol ++ ['"']

/-- An integer, if it has not too many digits. -/
def integerDraft (n : Int) : Draft :=
  match (Value.int n).written with
  | .ok t => .ofChars t.chars
  | .error f => .cut f

/-- A key between quotes, if the value may be one. -/
def keyDraft : Value → Draft
  | .text t => .ofChars (quoted t)
  | .float x => .ofChars ('"' :: Layout.document.float x ++ ['"'])
  | .bool b => .ofChars ('"' :: (if b then "true" else "false").toList ++ ['"'])
  | .null => .ofChars ('"' :: "null".toList ++ ['"'])
  | .int n =>
      match (integerDraft n).fault with
      | some f => .cut f
      | none => .ofChars ('"' :: (integerDraft n).written ++ ['"'])
  | v => .cut (.badKey v.kind)

/-- A new line inside `depth` lists and dictionaries. -/
def newLine (depth : Nat) : List Char :=
  '\n' :: List.replicate (2 * depth) ' '

/-- How many lists and dictionaries may lie inside each other. -/
def nestingLimit : Nat := 985

/-- An item of a list behind its bracket or its comma. -/
def behind (lead : List Char) (v : Value) (item : Draft) : Draft :=
  match v, item.fault with
  | .int _, some _ => item
  | _, _ => (Draft.ofChars lead).andThen item

section

variable (untied : (depth number : Nat) → Draft)

mutual

/-- A value inside `depth` lists and dictionaries; `untied` writes the collection of a knot. -/
def draft (depth : Nat) : Value → Draft
  | .null => .ofChars "null".toList
  | .bool b => .ofChars (if b then "true" else "false").toList
  | .int n => integerDraft n
  | .float x => .ofChars (Layout.document.float x)
  | .text t => .ofChars (quoted t)
  | .list [] | .tuple [] => .ofChars ['[', ']']
  | .list (v :: rest) | .tuple (v :: rest) =>
      if depth = nestingLimit then .cut .tooDeep
      else
        (behind ('[' :: newLine (depth + 1)) v (draft (depth + 1) v)).andThen
          ((moreItems (depth + 1) rest).andThen (.ofChars (newLine depth ++ [']'])))
  | .dict [] => .ofChars ['{', '}']
  | .dict ((k, v) :: rest) =>
      if depth = nestingLimit then .cut .tooDeep
      else
        (Draft.ofChars ('{' :: newLine (depth + 1))).andThen
          ((keyDraft k).andThen
            ((Draft.ofChars [':', ' ']).andThen
              ((draft (depth + 1) v).andThen
                ((moreEntries (depth + 1) rest).andThen (.ofChars (newLine depth ++ ['}']))))))
  | .knot _ number => untied depth number
  | v => .cut (.notWritable v.kind)

/-- Further items of a list. -/
def moreItems (depth : Nat) : List Value → Draft
  | [] => .ofChars []
  | v :: rest => (behind (',' :: newLine depth) v (draft depth v)).andThen (moreItems depth rest)

/-- Further entries of a dictionary.  The comma is written once the key turns out to be one. -/
def moreEntries (depth : Nat) : List (Value × Value) → Draft
  | [] => .ofChars []
  | (k, v) :: rest =>
      match (keyDraft k).fault with
      | some f => .cut f
      | none =>
          (Draft.ofChars (',' :: newLine depth)).andThen
            ((keyDraft k).andThen
              ((Draft.ofChars [':', ' ']).andThen
                ((draft depth v).andThen (moreEntries depth rest))))

end

end

/-- The collection of a knot.  `opened` are the knots around it, and no more than `left` others can
be. -/
def untiedDraft (knots : Knots) : (left : Nat) → (opened : List Nat) → (depth number : Nat) → Draft
  | 0, _, _, _ => .cut .circular
  | left + 1, opened, depth, number =>
      if opened.contains number then .cut .circular
      else
        match knots[number]? with
        | some v => draft (untiedDraft knots left (number :: opened)) depth v
        | none => .cut .circular

/-- The text of a value, whose knots are in a table. -/
def render (v : Value) (knots : Knots) : Draft :=
  draft (untiedDraft knots (knots.size + 1) []) 0 v

end Annealing.Json
