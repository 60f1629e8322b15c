import Annealing.Proofs.Configuration.Load
import Annealing.Proofs.Document.Json.Native
import Annealing.Proofs.Run.Publish
import Annealing.Report.Summary

/-!
# Report — a summary that is loaded again

The summary of a run is written for whoever compares runs later, and is read as a configuration is.
Of native parameters and further entries nothing is lost on the way: the text is whole, and what is
loaded from its file has the same keys in the same order with the same values
(`Report.saved_summary_loads`).

* `Report.leadingFields`: the three fields of every summary.
* `Report.summary_eq`: a summary is these fields and the further ones, with the values that the
  further ones give to the three.
-/

namespace Annealing.Report

/-- The fields of every summary. -/
def leadingFields (bestCost : Float) (logged : Nat) (params : Value) : List (Text × Value) :=
  [("final_best_cost", .float bestCost), ("trials_logged", .int logged), ("params", params)]

variable {bestCost : Float} {logged : Nat} {params : Value} {extra : List (Text × Value)}

theorem leadingFields_nodup : ((leadingFields bestCost logged params).map Prod.fst).Nodup :=
  (by decide : ([("final_best_cost" : Text), "trials_logged", "params"]).Nodup)

/-- A summary is made of its leading fields and the further ones. -/
theorem summary_eq (distinct : (extra.map Prod.fst).Nodup) :
    summary bestCost logged params (Entries.ofFields extra) =
      .dict (Entries.ofFields (Entries.overridden (leadingFields bestCost logged params) extra)) :=
  congrArg Value.dict (Entries.update_ofFields leadingFields_nodup distinct)

section

variable {room : Nat} (countable : logged < 10 ^ Numeral.digitLimit)
  (kept : Json.Native room params)
  (distinct : (extra.map Prod.fst).Nodup) (names : ∀ f ∈ extra, f.1.Whole)
  (values : ∀ f ∈ extra, Json.Native room f.2)

include countable kept distinct names values

/-- A summary of native values is native. -/
theorem summary_native :
    Json.Native (room + 1) (summary bestCost logged params (Entries.ofFields extra)) := by
  have few : (Decimal.natural (logged : Int).natAbs).length ≤ Numeral.digitLimit :=
    (Nat.length_toDigits_le_iff (by decide) (by decide)).mpr countable
  have leading : ∀ f ∈ leadingFields bestCost logged params, f.1.Whole ∧ Json.Native room f.2 := by
    simp only [leadingFields, List.forall_mem_cons]
    exact ⟨⟨Text.whole_ofChars _, .float bestCost⟩, ⟨Text.whole_ofChars _, .int few⟩,
      ⟨Text.whole_ofChars _, kept⟩, fun _ h => nomatch h⟩
  rw [summary_eq distinct]
  refine .dict (Entries.overridden_nodup leadingFields_nodup distinct) (fun f hf => ?_) fun f hf =>
    ?_
  · exact (Entries.mem_of_mem_overridden hf).elim (fun h => (leading f h).1) (names f)
  · exact (Entries.mem_of_mem_overridden hf).elim (fun h => (leading f h).2) (values f)

/-- **A summary that is saved is loaded again**: its text is never cut off, and the file at a path
of JSON holds the leading fields, with other values where further ones have their names, and then
the rest of the further ones. -/
theorem saved_summary_loads (deep : room < Json.nestingLimit) (knots : Knots) :
    (summaryText bestCost logged params (Entries.ofFields extra) knots).fault = none ∧
      ∀ (p : Path) (t t' : Tree), Configuration.isJson p = true →
        Tree.storage.write p (.text (summaryText bestCost logged params
          (Entries.ofFields extra) knots).written) t = .ok () t' →
        Configuration.load Tree.storage p t' =
          .ok (.plain (.dict (Entries.ofFields
            (Entries.overridden (leadingFields bestCost logged params) extra)))) t' := by
  have native : Json.Native (room + 1) (summary bestCost logged params (Entries.ofFields extra)) :=
    summary_native countable kept distinct names values
  have whole : (summaryText bestCost logged params (Entries.ofFields extra) knots).fault = none :=
    native.whole (by omega)
  refine ⟨whole, fun p t t' json written => ?_⟩
  obtain ⟨place, located, there⟩ := Tree.there_of_write written
  refine Configuration.load_of_file located there ?_
  rw [json]
  refine (Configuration.parse_render whole).trans ?_
  rw [Json.returned, native.image, summary_eq distinct]

end

/-- Parameters with a quote, a backslash, a line end, characters beyond ASCII and beyond the first
65536, and empty collections inside others. -/
def quirkyParams : Value :=
  .dict (Entries.ofFields
    [("note", .text (Text.ofString "\"a\\b\"\nö\u007f😀")),
     ("", .list [.int (-12), .float 1e23, .float (1 / 0), .list [], .dict [], .null, .bool true])])

theorem quirkyParams_native : Json.Native 2 quirkyParams := by
  refine .dict (by decide) ?_ ?_
  · simp only [List.forall_mem_cons]
    exact ⟨Text.whole_ofChars _, Text.whole_ofChars _, fun _ h => nomatch h⟩
  · simp only [List.forall_mem_cons]
    refine ⟨.text (Text.whole_ofChars _), .list ?_, fun _ h => nomatch h⟩
    simp only [List.forall_mem_cons]
    exact ⟨.int (by decide), .float _, .float _, .noItems, .noEntries, .null, .bool true,
      fun _ h => nomatch h⟩

/-- A summary whose best cost is no number, and one of whose leading fields is replaced. -/
theorem quirky_summary_loads :
    let draft := summaryText (0 / 0) 3 quirkyParams
      (Entries.ofFields [("seed", .int 7), ("trials_logged", .null)]) #[]
    draft.fault = none ∧
      ∃ t', Tree.storage.write ⟨["metrics.JSON"], false⟩ (.text draft.written) .empty = .ok () t' ∧
        Configuration.load Tree.storage ⟨["metrics.JSON"], false⟩ t' =
          .ok (.plain (.dict (Entries.ofFields
          [("final_best_cost", .float (0 / 0)), ("trials_logged", .null), ("params", quirkyParams),
            ("seed", .int 7)]))) t' := by
  intro draft
  have fields : ∀ f ∈ [(("seed" : Text), Value.int 7), ("trials_logged", .null)], f.1.Whole ∧
      Json.Native 2 f.2 := by
    simp only [List.forall_mem_cons]
    exact ⟨⟨Text.whole_ofChars _, .int (by decide)⟩, ⟨Text.whole_ofChars _, .null⟩,
      fun _ h => nomatch h⟩
  obtain ⟨whole, loads⟩ : draft.fault = none ∧
      _ := saved_summary_loads (by decide +kernel) quirkyParams_native (by decide)
    (fun f hf => (fields f hf).1) (fun f hf => (fields f hf).2) (by decide) #[]
  have written : Tree.storage.write ⟨["metrics.JSON"], false⟩ (.text draft.written) .empty =
      .ok () (Tree.empty.insert ["metrics.JSON"] (.file (.text draft.written))) := by
    have absent : Tree.empty.get? ["metrics.JSON"] ≠ some .directory := nofun
    exact Tree.write_apply (by with_unfolding_all rfl) absent _
  exact ⟨whole, _, written, loads _ _ _ (by decide) written⟩

end Annealing.Report
