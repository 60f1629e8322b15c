import Annealing.Document.Json.Writer
import Annealing.Report.Row
import Annealing.Value.Entries

/-!
# Report — the summary of a run

The summary is a dictionary: the cost of the best state, the number of logged trials, the
parameters, and whatever else is to be kept with them.  Further entries that have one of the first
three names replace it.
-/

namespace Annealing.Report

/-- The summary of a run. -/
def summary (bestCost : Float) (logged : Nat) (params : Value) (extra : Entries) : Value :=
  .dict (Entries.update
    [(.ofString "final_best_cost", .float bestCost),
     (.ofString "trials_logged", .int logged),
     (.ofString "params", params)] extra)

/-- The text of the summary, whose knots are in a table. -/
def summaryText (bestCost : Float) (logged : Nat) (params : Value) (extra : Entries)
    (knots : Knots) : Json.Draft :=
  Json.render (summary bestCost logged params extra) knots

end Annealing.Report
