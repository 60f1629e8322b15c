import Annealing.Table.Word

/-!
# Table — reading rows of fields

A file is read as rows, one a line, of fields with commas between them.  A field that starts with a
quote goes on to the next quote that stands alone, over commas and line ends; two quotes inside it
are one.  A quote anywhere else is an octet like others, and what follows a closing quote belongs to
the field.  Every line feed and every carriage return ends a line.  Lines without an octet other
than blanks and tabs are passed over, as is a byte order mark in front of the file.

`Table.records` reads the rows, and says whether the file ends inside quotes.
-/

namespace Annealing.Table

/-- The octets between two fields, and around one. -/
def comma : UInt8 := 0x2C

@[inherit_doc comma]
def quote : UInt8 := 0x22

/-- Whether an octet ends a line. -/
def isLineEnd (o : UInt8) : Bool := o = 0x0A || o = 0x0D

/-- Whether an octet is a space or a tab. -/
def isSpace (o : UInt8) : Bool := o = 0x20 || o = 0x09

/-- Where in a row the next octet stands. -/
inductive Place where
  /-- At the front of a line, after blanks at most. -/
  | line
  /-- At the front of a field. -/
  | fresh
  /-- In a field without quotes, or behind its closing quote. -/
  | plain
  /-- Between quotes. -/
  | quoted
  /-- Behind a quote that closes a field or is the first of two. -/
  | closing
deriving DecidableEq, Repr

/-- What has been read: the field, the row and the rows, each with the last item first. -/
structure Progress where
  place : Place
  field : List UInt8
  row : List Word
  rows : List (List Word)

namespace Progress

/-- Before the first octet. -/
def empty : Progress := ⟨.line, [], [], []⟩

/-- Adds an octet to the field. -/
def push (p : Progress) (place : Place) (o : UInt8) : Progress :=
  { p with place, field := o :: p.field }

/-- Ends the field. -/
def endField (p : Progress) : Progress :=
  { p with place := .fresh, field := [], row := ⟨p.field.reverse⟩ :: p.row }

/-- Ends the field and the row. -/
def endRow (p : Progress) : Progress :=
  { place := .line, field := [], row := [], rows := (⟨p.field.reverse⟩ :: p.row).reverse :: p.rows }

/-- An octet outside quotes, in a field that has begun. -/
def inField (p : Progress) (o : UInt8) : Progress :=
  if isLineEnd o then p.endRow
  else if o = comma then p.endField
  else p.push .plain o

/-- An octet at the front of a field. -/
def atFront (p : Progress) (o : UInt8) : Progress :=
  if o = quote then { p with place := .quoted } else p.inField o

/-- One octet. -/
def step (p : Progress) (o : UInt8) : Progress :=
  match p.place with
  | .line =>
      if isLineEnd o then { p with field := [] }
      else if isSpace o then p.push .line o
      else if p.field.isEmpty then p.atFront o
      else p.inField o
  | .fresh => p.atFront o
  | .plain => p.inField o
  | .quoted => if o = quote then { p with place := .closing } else p.push .quoted o
  | .closing => if o = quote then p.push .quoted o else p.inField o

/-- The rows when the file ends here.  Inside quotes the last row is none. -/
def finish (p : Progress) : List (List Word) :=
  match p.place with
  | .line | .quoted => p.rows.reverse
  | _ => p.endRow.rows.reverse

end Progress

/-- A file without a byte order mark in front. -/
def withoutMark : List UInt8 → List UInt8
  | 0xEF :: 0xBB :: 0xBF :: rest => rest
  | octets => octets

/-- The rows of a file, and whether it ends outside quotes. -/
def records (octets : List UInt8) : List (List Word) × Bool :=
  let p := (withoutMark octets).foldl Progress.step .empty
  (p.finish, p.place != .quoted)

end Annealing.Table
