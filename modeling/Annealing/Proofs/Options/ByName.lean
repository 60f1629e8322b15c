import Annealing.Grouping.Strategy
import Annealing.Proofs.Options
import Annealing.Proofs.Traversal
import Annealing.Search.Script

/-!
# Options — name by name

Each of the five parameters is read by a rule of its own (`Options.Parameter`): what is given under
its name, or its default, is converted to the kind of its numbers.  The rules are followed one after
another (`Options.ofEntries_values`), so what is wrong with the first name that is wrong is
reported, and no parameter depends on what is given under another name.

**Options by name** (`Options.options_by_name`).  The report of options that were read has the five
names in their order, each with what its rule makes of the value under it, and behind them the other
entries as they were given, except for nulls.  Reading the report again changes nothing, so a search
with the report is the search with the options as given.
-/

namespace Annealing.Options

open Entries (ofFields)

/-- How a parameter is read: its name, its default, and what a value is converted to. -/
structure Parameter where
  name : String
  default : Value
  convert : Value → Except Fault Value

namespace Parameter

/-- A parameter that is a double. -/
def real (name : String) (default : Float) : Parameter where
  name := name
  default := .float default
  convert v := do return .float (← v.toReal)

/-- A parameter that is an integer. -/
def whole (name : String) (default : Int) : Parameter where
  name := name
  default := .int default
  convert v := do return .int (← v.toInt)

/-- All parameters, in the order in which they are read. -/
def all : List Parameter :=
  [real "initial_temperature" 1.0, real "cooling_factor" 0.99, real "minimum_temperature" 1e-5,
    whole "swaps_per_temperature" 10, whole "log_period" 1]

/-- What is made of the value under the name, if there is one; null stands for none. -/
def read (P : Parameter) : Option Value → Except Fault Value
  | none | some .null => P.convert P.default
  | some v => P.convert v

theorem read_eq (P : Parameter) (entries : Entries) :
    P.read (entries.field? P.name) = P.convert (given entries P.name P.default) := by
  rw [given]
  cases entries.field? P.name with
  | none => rfl
  | some v => cases v <;> rfl

end Parameter

open Parameter (all)

/-- **The parameters are read one by one**, each from what stands under its own name. -/
theorem ofEntries_values (entries : Entries) :
    (ofEntries entries).map (fun o => o.parameters.map Prod.snd) = all.mapM fun P =>
      P.read (entries.field? P.name) := by
  simp only [Parameter.read_eq]
  unfold ofEntries all
  simp only [List.mapM_cons, List.mapM_nil, Parameter.real, Parameter.whole]
  cases (given entries "initial_temperature" (.float 1.0)).toReal with
  | error f => rfl
  | ok initial =>
      cases (given entries "cooling_factor" (.float 0.99)).toReal with
      | error f => rfl
      | ok factor =>
          cases (given entries "minimum_temperature" (.float 1e-5)).toReal with
          | error f => rfl
          | ok minimum =>
              cases (given entries "swaps_per_temperature" (.int 10)).toInt with
              | error f => rfl
              | ok swaps =>
                  cases (given entries "log_period" (.int 1)).toInt with
                  | error f => rfl
                  | ok period => rfl

/-- The fields that are no parameters, those with a null left out. -/
def otherFields (fields : List (Text × Value)) : List (Text × Value) :=
  fields.filter fun f => !(names.map Text.ofString).contains f.1 && !isNull f.2

theorem isName_text (name : Text) :
    isName (.text name) = true ↔ name ∈ names.map Text.ofString := by
  simp only [isName, List.any_eq_true, Value.ofString, Entries.same_text, beq_iff_eq, List.mem_map]

theorem others_ofFields (fields : List (Text × Value)) :
    others (ofFields fields) = ofFields (otherFields fields) := by
  rw [others, ofFields, otherFields, List.filter_map]
  refine congrArg (List.map _) (List.filter_congr fun f _ => ?_)
  rw [Bool.eq_iff_iff]
  simp [← isName_text]

/-- The options of a dictionary. -/
theorem ofValue_dict (entries : Entries) : ofValue (.dict entries) = ofEntries entries := by
  cases entries <;> rfl

section

variable {fields : List (Text × Value)}

/-- Options are made of fields if all parameters are. -/
theorem exists_of_values {values : List Value}
    (read : (all.mapM fun P => P.read (fields.lookup (Text.ofString P.name))) = .ok values) :
    ∃ o, ofValue (.dict (ofFields fields)) = .ok o ∧
      o.parameters = (names.map Text.ofString).zip values := by
  simp only [← Entries.field?_ofFields, ← ofEntries_values] at read
  rw [ofValue_dict]
  cases made : ofEntries (ofFields fields) with
  | ok o =>
      rw [made] at read
      cases read
      exact ⟨o, rfl, rfl⟩
  | error f =>
      rw [made] at read
      cases read

/-- What is made of fields, parameter by parameter. -/
theorem read_fields {o : Options} (made : ofValue (.dict (ofFields fields)) = .ok o) :
    List.Forall₂ (fun P f => f.1 = Text.ofString P.name ∧
      P.read (fields.lookup f.1) = .ok f.2) all o.parameters ∧
      o.extras = ofFields (otherFields fields) := by
  rw [ofValue_dict] at made
  have values := ofEntries_values (ofFields fields)
  rw [made] at values
  have read := mapM_ok_iff.mp values.symm
  rw [List.forall₂_map_right_iff] at read
  have named : List.Forall₂ (fun P f => f.1 = Text.ofString P.name) all o.parameters :=
    .cons rfl (.cons rfl (.cons rfl (.cons rfl (.cons rfl .nil))))
  refine ⟨List.Forall₂.mp ?_ named read, ?_⟩
  · intro P f name value
    rw [Entries.field?_ofFields, ← name] at value
    exact ⟨name, value⟩
  · rw [extras_of_ofEntries made, others_ofFields]

/-- Options are refused for the first parameter that is not converted. -/
theorem refused_fields {f : Fault} : ofValue (.dict (ofFields fields)) = .error f ↔
    ∃ before P after, all = before ++ P :: after ∧
      (∀ Q ∈ before, ∃ v, Q.read (fields.lookup (Text.ofString Q.name)) = .ok v) ∧
      P.read (fields.lookup (Text.ofString P.name)) = .error f := by
  rw [ofValue_dict]
  have values := ofEntries_values (ofFields fields)
  simp only [Entries.field?_ofFields] at values
  rw [← mapM_error_iff, ← values]
  cases ofEntries (ofFields fields) with
  | ok o => exact iff_of_false nofun nofun
  | error e => simp [Except.map]

end

/-- **Options by name.** -/
theorem options_by_name (fields : List (Text × Value)) :
    (∀ o, ofValue (.dict (ofFields fields)) = .ok o →
      o.toEntries = ofFields (o.parameters ++ otherFields fields) ∧
      List.Forall₂ (fun P f => f.1 = Text.ofString P.name ∧
        P.read (fields.lookup f.1) = .ok f.2) all o.parameters ∧
      ofValue (.dict o.toEntries) = .ok o ∧
      (∀ (s : Script) logging initial,
        s.run (.dict o.toEntries) logging initial =
          s.run (.dict (ofFields fields)) logging initial) ∧
      ∀ p initial, Grouping.annealValues p (.dict o.toEntries) initial =
        Grouping.annealValues p (.dict (ofFields fields)) initial) ∧
    ∀ f, ofValue (.dict (ofFields fields)) = .error f ↔
      ∃ before P after, all = before ++ P :: after ∧
        (∀ Q ∈ before, ∃ v, Q.read (fields.lookup (Text.ofString Q.name)) = .ok v) ∧
        P.read (fields.lookup (Text.ofString P.name)) = .error f := by
  refine ⟨fun o made => ?_, fun f => refused_fields⟩
  obtain ⟨read, extras⟩ := read_fields made
  have again := ofValue_toEntries made
  have same : ofValue (.dict o.toEntries) = ofValue (.dict (ofFields fields)) :=
    again.trans made.symm
  refine ⟨?_, read, again, fun s logging initial => ?_, fun p initial => ?_⟩
  · rw [toEntries_eq, extras, ofFields, ofFields, ofFields, List.map_append]
  · rw [Script.run, Script.run, same]
  · rw [Grouping.annealValues, Grouping.annealValues, same]

/-- Options with a text and a double for integers, nulls, and a key that is no name. -/
def quirky : List (Text × Value) :=
  [("swaps_per_temperature", .text "7"), ("note", .bool true), ("cooling_factor", .null),
    ("log_period", .float 2.9), ("gone", .null)]

/-- Options with two values that are no numbers, the second parameter first. -/
def wrong : List (Text × Value) :=
  [("cooling_factor", .text "x"), ("initial_temperature", .list [])]

theorem quirky_by_name : ∃ o, ofValue (.dict (ofFields quirky)) = .ok o ∧
    o.toEntries = ofFields [("initial_temperature", .float 1.0), ("cooling_factor", .float 0.99),
      ("minimum_temperature", .float 1e-5), ("swaps_per_temperature", .int 7),
      ("log_period", .int 2), ("note", .bool true)] ∧
    ofValue (.dict o.toEntries) = .ok o ∧ ofValue (.dict (ofFields wrong)) =
      .error (.notReal .list) := by
  have read : (all.mapM fun P => P.read (quirky.lookup (Text.ofString P.name))) =
      .ok [.float 1.0, .float 0.99, .float 1e-5, .int 7, .int 2] := by rfl
  obtain ⟨o, made, parameters⟩ := exists_of_values read
  obtain ⟨listed, -, again, -, -⟩ := (options_by_name quirky).1 o made
  refine ⟨o, made, ?_, again, ((options_by_name wrong).2 _).mpr ⟨[], _, _, rfl, nofun, rfl⟩⟩
  rw [listed, parameters]
  rfl

end Annealing.Options
