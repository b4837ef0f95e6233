/-
Models as JSON text, the form in which they are kept in files.
-/
import IssueQuery.Issue.Storage
import IssueQuery.Json.Printer
import IssueQuery.Json.Reader
import IssueQuery.Model

namespace IssueQuery.Model

def toJson (m : Model) : Json :=
  .record [("issues", some (.array (m.issues.map Issue.toJson))),
    ("labels", some (.array (m.labels.map Label.toJson))),
    ("milestones", some (.array (m.milestones.map Milestone.toJson))),
    ("users", some (.array (m.users.map User.toJson)))]

def ofJson? (v : Json) : Option Model := do
  match ← v.fields? ["issues", "labels", "milestones", "users"] with
  | [issues, labels, milestones, users] =>
    return ⟨← Json.defaulted [] (Json.list? Issue.ofJson?) issues,
      ← Json.defaulted [] (Json.list? Label.ofJson?) labels,
      ← Json.defaulted [] (Json.list? Milestone.ofJson?) milestones,
      ← Json.defaulted [] (Json.list? User.ofJson?) users⟩
  | _ => none

/-- The text of a file that holds the model. -/
def text (m : Model) : String := m.toJson.pretty ++ "\n"

/-- The model that the text of a file holds. -/
def ofText? (s : String) : Option Model := (Json.parse? s).bind ofJson?

end IssueQuery.Model
