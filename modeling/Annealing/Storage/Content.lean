import Annealing.Report.Archive
import Annealing.Text.Utf8

/-!
# Storage — what a file holds

A file holds octets.  What the library writes is a text or an archive of arrays; `Content.octets` is
the form in which it is stored.
-/

namespace Annealing

/-- What a file holds. -/
inductive Content where
  | octets (b : List UInt8)
  | text (cs : List Char)
  | archive (arrays : List Series)

namespace Content

/-- The octets of a file. -/
def stored : Content → List UInt8
  | .octets b => b
  | .text cs => Text.Utf8.encode cs
  | .archive arrays => Archive.encode arrays

end Content

end Annealing
