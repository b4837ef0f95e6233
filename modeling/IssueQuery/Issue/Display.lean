/-
Issues as users see them: in a line, in full, and as JSON for other programs.
-/
import IssueQuery.Colour
import IssueQuery.Issue.Storage

namespace IssueQuery.Issue

/-- The state of an issue, and who is assigned. -/
def status (coloured : Bool) (i : Issue) : String :=
  match i.assignee with
  | some u => Colour.state coloured i.state ++ ", @" ++ u.login
  | none => Colour.state coloured i.state

/-- An issue on one line. -/
def line (coloured : Bool) (i : Issue) : String :=
  "- [" ++ i.kind.word ++ "] (" ++ i.status coloured ++ ") #" ++ toString i.id.toNat ++ ": " ++ i.title

/-- A line of the full form, if the field is there. -/
def detail (field : String) (value : Option String) : List String :=
  value.toList.map fun v => "  " ++ field ++ ": " ++ v

/-- All fields that the issue has but its body, a line each. -/
def details (i : Issue) : String :=
  let labels := if i.labels.isEmpty then none else some (", ".intercalate (i.labels.map (·.fullName)))
  "\n".intercalate <|
    ["#" ++ toString i.id.toNat ++ ": " ++ i.title] ++
    detail "Kind" (some i.kind.word) ++
    detail "State" (some i.state.word) ++
    detail "Author" (some i.author) ++
    detail "Assignee" (i.assignee.map (·.login)) ++
    detail "Milestone" (i.milestone.map (·.title)) ++
    detail "Labels" labels ++
    detail "Parent" (i.parent.map fun p => "#" ++ toString p.toNat) ++
    detail "Updated" (some (i.updatedAt.date.text ++ " " ++ i.updatedAt.clockText))

/-- The number and title of an issue. -/
def heading (i : Issue) : String := "#" ++ toString i.id.toNat ++ " " ++ i.title

/-- An issue for other programs; users and milestones are given by name only. -/
def toSummary (i : Issue) : Json :=
  .record [("id", some (.word32 i.id)), ("kind", some i.kind.toJson), ("state", some i.state.toJson),
    ("title", some (.text i.title)), ("author", some (.text i.author)),
    ("assignee", i.assignee.map fun u => .text u.login),
    ("milestone", i.milestone.map fun m => .text m.title),
    ("labels", some (.array (i.labels.map Label.toJson))), ("parent", i.parent.map .word32),
    ("comments", some (.word32 i.comments)), ("created_at", some (.instant i.createdAt)),
    ("updated_at", some (.instant i.updatedAt))]

end IssueQuery.Issue
