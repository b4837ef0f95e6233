/-
What can go wrong in a project, with the message for each case.
-/
import IssueQuery.Filter.Apply
import IssueQuery.Filter.Printer
import IssueQuery.SyntaxError

namespace IssueQuery

/-- Why a filter cannot be read or used. -/
inductive FilterError
  | unreadable (e : SyntaxError)
  | meaningless (e : SemanticError)
  | inapplicable (e : ApplyError)
  deriving DecidableEq

def FilterError.message : FilterError → String
  | unreadable e => e.message
  | meaningless e => e.message
  | inapplicable e => e.message

/-- Why a command fails. The files of a project may lack what is asked for, or hold something else
than they should. -/
inductive ProjectError
  | notInitialized
  | alreadyInitialized (place : String)
  | modelNotFound (path : String)
  | issueNotFound (id : UInt32)
  | savedFilterNotFound (name : String)
  | savedFilterExists (name : String)
  | invalidFilterName (name : String)
  | incompleteFilter (e : SyntaxError)
  | emptyFilter
  | notApplicable (f : Filter)
  | filter (e : FilterError)
  | badFile
  | badModel
  | badConfig
  deriving DecidableEq

namespace ProjectError

/-- A filter that cannot be applied, and how it could. -/
def notApplicableMessage (reason : String) : String :=
  "filter cannot be applied: " ++ reason ++ "\n  hint: only conjunctions with at most one qualifier " ++
    "of each kind (labels excepted) can be applied"

def message : ProjectError → String
  | notInitialized => "not initialized: run 'hf init' first"
  | alreadyInitialized place => "already initialized at " ++ place
  | modelNotFound path =>
    "model not found: " ++ path ++ "\n  hint: set 'model' in .hubfilter/config.toml or create the file"
  | issueNotFound id => "issue not found: #" ++ toString id.toNat
  | savedFilterNotFound name =>
    "saved filter not found: '" ++ name ++ "'\n  hint: run 'hf saved list' to see saved filters"
  | savedFilterExists name =>
    "saved filter '" ++ name ++ "' already exists\n  hint: pass --force to replace it"
  | invalidFilterName name =>
    "invalid filter name: '" ++ name ++ "'\n  hint: names may contain letters, digits, '-' and '_'"
  | incompleteFilter e => "incomplete filter: " ++ e.message
  | emptyFilter => notApplicableMessage "the filter is empty"
  | notApplicable f => notApplicableMessage f.text
  | filter e => e.message
  | badFile => "io error"
  | badModel => "json error"
  | badConfig => "config error"

end ProjectError

end IssueQuery
