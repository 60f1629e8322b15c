import Annealing.Configuration
import Annealing.Proofs.Document.Json.Return
import Annealing.Proofs.Storage.Tree
import Annealing.Proofs.Text.Utf8

/-!
# Configuration — reading a file of JSON that was written

A JSON text that is written as a whole has plain characters and no blank at either end, so neither
its line ends nor stripping change anything about it when it is read from the octets of the file as
a configuration (`Configuration.parse_render`).  A configuration is loaded from a file that is there
(`Configuration.load_of_file`).
-/

namespace Annealing.Configuration

/-- **A value that was written as a whole is the configuration in its file**, as its image. -/
theorem parse_render {v : Value} {knots : Knots} (whole : (Json.render v knots).fault = none) :
    parse true (Text.Utf8.encode (Json.render v knots).written) =
      .ok (plain (Json.returned v knots)) := by
  have formed := Json.render_formed whole
  have text : Text.strip Text.isBlank (Text.unifyLineEnds (Json.render v knots).written) =
      (Json.render v knots).written := by
    obtain ⟨c, rest, same, blank, -⟩ := formed.first
    rw [formed.plain.unifyLineEnds, Text.strip_of_ends ⟨c, rest, same, blank⟩ formed.last]
  have nonempty : (Json.render v knots).written.isEmpty = false := by
    obtain ⟨c, rest, same, -⟩ := formed.first
    rw [same]
    rfl
  simp only [parse, Text.Utf8.decode_encode, bind, Except.bind, text, nonempty,
    Json.read_render whole]
  rfl

/-- The configuration in a file that is there. -/
theorem load_of_file {t : Tree} {p : Path} {place : List Text} {content : Content}
    {cfg : Configuration} (located : t.locate p = .ok place)
    (there : t.get? place = some (.file content))
    (read : parse (isJson p) content.stored = .ok cfg) : load Tree.storage p t = .ok cfg t := by
  have contains : Tree.storage.contains p t = .ok true t := by
    change Tree.asking (fun t => (t.at? p).map Option.isSome) t = _
    rw [Tree.asking_apply, Tree.at?, located]
    simp only [there]
    rfl
  have octets : Tree.storage.read p t = .ok content.stored t := by
    change Tree.asking (fun t => t.read p) t = _
    rw [Tree.asking_apply, Tree.read_of_file located there]
  refine (Effect.bind_of_ok contains).trans ?_
  simp only [Bool.not_true, Bool.false_eq_true, if_false]
  refine (Effect.bind_of_ok octets).trans ?_
  rw [read]
  rfl

end Annealing.Configuration
