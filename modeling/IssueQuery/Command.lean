/-
The commands of the program.
-/
import IssueQuery.Project.Listing

namespace IssueQuery

/-- A command on saved filters. -/
inductive SavedCommand
  | add (name filter : String) (force : Bool)
  | remove (name : String)
  | list
  deriving DecidableEq, Repr

/-- What the program is asked to do. -/
inductive Command
  | list (filter : String) (format : OutputFormat) (limit : Option Nat)
  | apply (id : UInt32) (filter : String) (dryRun : Bool)
  | check (filter : String)
  | tokens (filter : String)
  | saved (command : SavedCommand)
  | qualifiers
  | init (model : String) (path : Option String)
  | completions (shell : String)
  deriving DecidableEq, Repr

end IssueQuery
