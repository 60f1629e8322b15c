import Annealing.Options
import Annealing.Proofs.Effect
import Annealing.Proofs.Value.Entries

/-!
# Options — reading options a second time

A run reads its options from the configuration, reports them, and hands the report to the search,
which reads them from it again.  The second reading finds the same options as the first
(`Options.ofValue_toEntries`): the parameters are numbers of the right kinds by then, and the other
entries are no parameters and not null.
-/

namespace Annealing.Options

variable {o : Options}

/-- The other entries of options are those of their dictionary. -/
theorem extras_of_ofEntries {entries : Entries} (read : ofEntries entries = .ok o) :
    o.extras = others entries := by
  obtain ⟨initial, -, read⟩ := except_bind_ok_iff.mp read
  obtain ⟨factor, -, read⟩ := except_bind_ok_iff.mp read
  obtain ⟨minimum, -, read⟩ := except_bind_ok_iff.mp read
  obtain ⟨swaps, -, read⟩ := except_bind_ok_iff.mp read
  obtain ⟨period, -, read⟩ := except_bind_ok_iff.mp read
  cases read
  rfl

/-- The other entries of options that were read are those that are kept. -/
theorem others_extras {given : Value} (read : ofValue given = .ok o) :
    others o.extras = o.extras := by
  have kept : ∀ entries, ofEntries entries = .ok o → others o.extras = o.extras := by
    intro entries read
    rw [extras_of_ofEntries read]
    exact List.filter_eq_self.mpr fun e he => (List.mem_filter.mp he).2
  unfold ofValue at read
  split at read
  · obtain ⟨entries, -, read⟩ := except_bind_ok_iff.mp read
    exact kept entries read
  · exact kept [] read

/-- The parameters under their names. -/
def parameters (o : Options) : List (Text × Value) :=
  [("initial_temperature", .float o.initialTemperature), ("cooling_factor", .float o.coolingFactor),
   ("minimum_temperature", .float o.minimumTemperature),
   ("swaps_per_temperature", .int o.swapsPerTemperature),
   ("log_period", .int o.logPeriod)]

theorem toEntries_eq (o : Options) : o.toEntries = Entries.ofFields o.parameters ++ o.extras := rfl

theorem isName_parameter {f : Text × Value} (h : f ∈ o.parameters) : isName (.text f.1) = true := by
  have listed : f.1 ∈ names.map Text.ofString := List.mem_map_of_mem h
  obtain ⟨name, hname, same⟩ := List.mem_map.mp listed
  refine List.any_eq_true.mpr ⟨name, hname, ?_⟩
  rw [Value.ofString, Entries.same_text, same, beq_self_eq_true]

/-- A parameter is found under its name. -/
theorem given_toEntries {name : String} {v : Value}
    (parameter : o.parameters.lookup (Text.ofString name) = some v) (number : isNull v = false)
    (default : Value) : given o.toEntries name default = v := by
  have found : Entries.field? o.toEntries name = some v := by
    rw [toEntries_eq]
    exact Entries.get?_ofFields parameter o.extras
  rw [given, found]
  cases v <;> first | rfl | cases number

/-- **Options that were read are found in their report again.** -/
theorem ofValue_toEntries {given : Value} (read : ofValue given = .ok o) :
    ofValue (.dict o.toEntries) = .ok o := by
  have extras : others o.toEntries = o.extras := by
    have dropped : others (Entries.ofFields o.parameters) = [] := by
      refine List.filter_eq_nil_iff.mpr fun e he => ?_
      obtain ⟨f, hf, rfl⟩ := List.mem_map.mp he
      simp [isName_parameter hf]
    rw [toEntries_eq, others, List.filter_append]
    exact (congrArg (· ++ others o.extras) dropped).trans (others_extras read)
  -- each of the five is found as a number of its kind, which is read as itself
  have numbers : ofEntries o.toEntries = .ok { o with extras := others o.toEntries } := by
    unfold ofEntries
    rw [given_toEntries (v := .float o.initialTemperature) rfl rfl,
      given_toEntries (v := .float o.coolingFactor) rfl rfl,
      given_toEntries (v := .float o.minimumTemperature) rfl rfl,
      given_toEntries (v := .int o.swapsPerTemperature) rfl rfl,
      given_toEntries (v := .int o.logPeriod) rfl rfl]
    rfl
  rw [extras] at numbers
  exact numbers

end Annealing.Options
