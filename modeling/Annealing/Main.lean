import Annealing.CommandLine.Program
import Annealing.Storage.Disk

/-!
# Main — the command line

Runs the program on the disk from the current directory, writes its texts to the two outputs and
ends with its status.  A fault of the run ends it with status 1.
-/

open Annealing in
/-- The command line. -/
def main (arguments : List String) : IO UInt32 := do
  let directory : Path := Path.root.join (Text.ofString (← IO.currentDir).toString)
  match ← (Program.run Disk.storage directory arguments).run with
  | .ok ending =>
      IO.print ending.output
      IO.eprint ending.complaint
      return UInt32.ofNat ending.status
  | .error f =>
      IO.eprintln (String.ofList f.message.chars)
      return 1
