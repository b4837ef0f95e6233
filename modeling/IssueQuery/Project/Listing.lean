/-
The issues that a filter selects, and how they are printed.
-/
import IssueQuery.Filter.Order
import IssueQuery.Issue.Display
import IssueQuery.Json.Printer
import IssueQuery.Project.Saved

namespace IssueQuery

/-- How a list of issues is printed. -/
inductive OutputFormat
  | text | json | id
  deriving DecidableEq, Repr

namespace Listing

/-- The issues of the model that satisfy the filter, in the order of its sort keys and not more than
the limit. -/
def select (f : Filter) (m : Model) (now : Instant) (limit : Option Nat) :
    Except SemanticError (List Issue) := do
  let scope ← Scope.ofFilter? f
  let found := m.issues.filter fun i => f.withoutMeta.isSatisfied ⟨m, scope, now⟩ i
  let sorted := Issue.sortBy scope.sortKeys found
  return match limit with
    | some n => sorted.take n
    | none => sorted

/-- The issues with the filter and the limit that they come from. -/
def toJson (f : Filter) (limit : Option Nat) (issues : List Issue) : Json :=
  .record [("issues", some (.array (issues.map Issue.toSummary))),
    ("filter", if f.isEmpty then none else some (.text f.text)), ("limit", limit.map .natural)]

/-- The issues in a format. -/
def render (f : Filter) (format : OutputFormat) (limit : Option Nat) (coloured : Bool)
    (issues : List Issue) : String :=
  match format with
  | .text => String.join (issues.map fun i => i.line coloured ++ "\n")
  | .id => String.join (issues.map fun i => toString i.id.toNat ++ "\n")
  | .json => (toJson f limit issues).pretty ++ "\n"

end Listing

end IssueQuery
