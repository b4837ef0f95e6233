/-
The configuration of a project: where its model is, and its saved filters.
-/
import IssueQuery.Files.Path
import IssueQuery.Project.Saved
import IssueQuery.Toml.Printer
import IssueQuery.Toml.Reader

namespace IssueQuery

structure Config where
  model : String
  filters : SavedFilters
  deriving DecidableEq

namespace Config

def defaultModel : String := "model.json"

/-! ## Text -/

/-- The configuration as the text of a file; the table of filters is left out if it is empty. -/
def text (c : Config) : String :=
  Toml.pairLine "model" c.model ++
    if c.filters.entries.isEmpty then ""
    else "\n[filters]\n" ++ String.join (c.filters.entries.map fun (name, f) => Toml.pairLine name f)

/-- The text that a value is, if it is a string. -/
def string? : Toml → Option String
  | .string s => some s
  | _ => none

/-- The name that the text of a time has where a table is asked for. -/
def timeName : String := "$__toml_private_datetime"

/-- The saved filters that a table of strings holds. A time is taken for a table of its text alone. -/
def filters? : Toml → Option SavedFilters
  | .time t => some (.ofList [(timeName, t.text)])
  | .table _ entries =>
    (entries.mapM fun entry => (string? entry.2).map (entry.1, ·)).map SavedFilters.ofList
  | _ => none

/-- The configuration that the text of a file holds. Other keys are passed over. -/
def ofText? (s : String) : Option Config := do
  let entries ← Toml.parse? s
  let model ← (entries.lookup "model").elim (some defaultModel) string?
  let filters ← (entries.lookup "filters").elim (some .empty) filters?
  return ⟨model, filters⟩

/-! ## Paths -/

/-- The directory that marks a project and holds its configuration. -/
def directoryName : String := ".hubfilter"

def fileName : String := "config.toml"

/-- The path of the model, which is given from the directory that the project is in. -/
def modelPath (c : Config) (workDirectory : String) : String :=
  Path.join ((Path.parent? workDirectory).getD workDirectory) c.model

end Config

end IssueQuery
