import Annealing.Text.Utf8

/-!
# Table — words

The fields of a table are words, octets as they stand in the file.  Numbers, truth values and the
words for a missing cell are written in ASCII, where every octet is a character; a word has to be
UTF-8 only where it stands for a text.
-/

namespace Annealing.Table

/-- What a field holds. -/
structure Word where
  octets : List UInt8
deriving DecidableEq, Repr

namespace Word

/-- A character for every octet.  An octet beyond ASCII becomes one that no number is written
with. -/
def chars (w : Word) : List Char :=
  w.octets.map fun o => Char.ofNat o.toNat

/-- The text of a word. -/
def text (w : Word) : Except Fault (List Char) :=
  Text.Utf8.decode w.octets

/-- The words that stand for a missing cell. -/
def missingWords : List (List Char) :=
  ["", "#N/A", "#N/A N/A", "#NA", "-1.#IND", "-1.#QNAN", "-NaN", "-nan", "1.#IND", "1.#QNAN",
    "<NA>", "N/A", "NA",
   "NULL", "NaN", "None", "n/a", "nan", "null"].map String.toList

/-- Whether a word stands for a missing cell. -/
def isMissing (w : Word) : Bool :=
  missingWords.contains w.chars

/-- The truth value that a word names. -/
def truth? (w : Word) : Option Bool :=
  let name := String.ofList (w.chars.map Char.toLower)
  if name = "true" then some true else if name = "false" then some false else none

end Word

end Annealing.Table
