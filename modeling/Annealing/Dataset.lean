import Annealing.Configuration
import Annealing.Grouping.Table
import Annealing.Grouping.Validity
import Annealing.Preferences.Table
import Annealing.Table.Load

/-!
# Dataset — what a search starts from

A dataset is a grouping together with preferences that fit it.  A configuration names the tables of
both, relative to a directory, or holds the groups itself; without a table of preferences they are
those by parity.  Both are checked, the grouping before the preferences are looked for.

* `Dataset.load` finds the dataset that a configuration describes.
-/

namespace Annealing

/-- A grouping and preferences. -/
structure Dataset where
  groups : Grouping Int
  preferences : Preferences

namespace Dataset

/-- The path of the table under a key, none if no table is named. -/
def tablePath (tables : Entries) (key : String) (base : Path) : Except Fault (Option Path) :=
  let name := (tables.field? key).getD .null
  if !name.truthy then .ok none
  else
    match name with
    | .text t => (base.join t).resolve.map some
    | v => .error (.badPath v.kind)

/-- The entries of a configuration that name tables. -/
def tables (cfg : Entries) (knots : Knots) : Except Fault Entries :=
  (knots.untie (((cfg.field? "dataset").getD (.dict [])).orElse (.dict []))).entriesFor "get"

/-- The grouping that a configuration holds itself. -/
def ownGroups (cfg : Entries) (knots : Knots) : Except Fault (Grouping Int) :=
  match cfg.field? "groups" with
  | none => .error .noGroups
  | some v => do (← (knots.untie v).items).mapM fun group => Grouping.memberRow (knots.untie group)

variable {m : Type → Type} [Monad m] [MonadExceptOf Fault m] (S : Storage m)

/-- The grouping in the table at a path, or in the configuration if no table is named. -/
def findGroups (cfg : Entries) (knots : Knots) : Option Path → m (Grouping Int)
  | some p => do MonadExcept.ofExcept (Grouping.ofTable (← Table.load S p))
  | none => MonadExcept.ofExcept (ownGroups cfg knots)

/-- The preferences in the table at a path, or those by parity if no table is named. -/
def findPreferences (greatest : Int) : Option Path → m Preferences
  | some p => do MonadExcept.ofExcept (Preferences.ofTable (← Table.load S p) (.int greatest))
  | none => MonadExcept.ofExcept (Preferences.upTo (.int greatest))

/-- The dataset that a configuration describes; tables are looked for from `base` on. -/
def load (cfg : Configuration) (base : Path) : m Dataset := do
  let entries ← MonadExcept.ofExcept cfg.entries
  let tables ← MonadExcept.ofExcept (tables entries cfg.knots)
  let groupsPath ← MonadExcept.ofExcept (tablePath tables "groups" base)
  let preferencesPath ← MonadExcept.ofExcept (tablePath tables "preferences" base)
  let groups ← findGroups S entries cfg.knots groupsPath
  MonadExcept.ofExcept groups.validate
  let members := groups.members
  let preferences ← findPreferences S (Grouping.greatest members) preferencesPath
  MonadExcept.ofExcept (preferences.validate members)
  return { groups, preferences }

end Dataset

end Annealing
