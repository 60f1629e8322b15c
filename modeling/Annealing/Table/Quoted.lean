import Annealing.Text.Basic

/-!
# Table — writing rows of fields

A table is written one row a line, fields with commas between them, every line closed by a carriage
return and a line feed.  A field stands between quotes exactly when it holds a comma, a quote or one
of the two characters that close a line; a quote inside is written twice.
-/

namespace Annealing.Table

/-- Whether a field with this symbol has to be quoted. -/
def isSpecial (s : Symbol) : Bool :=
  s = .char ',' || s = .char '"' || s = .char '\r' || s = .char '\n'

/-- A text with every quote doubled. -/
def doubled : Text → Text
  | [] => []
  | s :: rest => if s = .char '"' then s :: s :: doubled rest else s :: doubled rest

/-- A field as it is written. -/
def field (text : Text) : Text :=
  if text.any isSpecial then .char '"' :: doubled text ++ [.char '"'] else text

/-- What closes a line. -/
def lineEnd : Text := [.char '\r', .char '\n']

/-- A row as it is written. -/
def row : List Text → Text
  | [] => lineEnd
  | [f] => field f ++ lineEnd
  | f :: rest => field f ++ .char ',' :: row rest

/-- A table as it is written. -/
def text (rows : List (List Text)) : Text :=
  rows.flatMap row

end Annealing.Table
