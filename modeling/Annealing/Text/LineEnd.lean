/-!
# Text — line ends

A line ends with a line feed, a carriage return or both in this order.  `Text.unifyLineEnds` writes
every line end as a line feed, so that what reads a text need not tell them apart.
-/

namespace Annealing.Text

/-- The text with a line feed at every line end. -/
def unifyLineEnds : List Char → List Char
  | [] => []
  | '\r' :: '\n' :: rest => '\n' :: unifyLineEnds rest
  | c :: rest => (if c = '\r' then '\n' else c) :: unifyLineEnds rest

end Annealing.Text
