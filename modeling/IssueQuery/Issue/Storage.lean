/-
Issues as JSON. Fields that are absent are left out, and so is an empty list of labels; a reader
takes a missing field for its default.
-/
import IssueQuery.Calendar.Notation
import IssueQuery.Issue
import IssueQuery.Json

namespace IssueQuery

/-- A 32-bit number as JSON. -/
def Json.word32 (n : UInt32) : Json := natural n.toNat

def Json.instant (t : Instant) : Json := text t.text

def Json.instant? (v : Json) : Option Instant := v.text?.bind Instant.ofText?

def Json.date? (v : Json) : Option Date := v.text?.bind Date.ofText?

namespace Label

def toJson (l : Label) : Json := .text l.fullName

def ofJson? (v : Json) : Option Label := v.text?.map Label.mk

end Label

namespace User

def toJson (u : User) : Json :=
  .record [("login", some (.text u.login)), ("name", u.name.map .text), ("alias", u.nickname.map .text)]

def ofJson? (v : Json) : Option User := do
  match ← v.fields? ["login", "name", "alias"] with
  | [login, name, nickname] =>
    return ⟨← Json.required Json.text? login, ← Json.optional Json.text? name,
      ← Json.optional Json.text? nickname⟩
  | _ => none

end User

namespace Milestone

def toJson (m : Milestone) : Json :=
  .record [("number", some (.word32 m.number)), ("title", some (.text m.title)),
    ("due_on", m.dueOn.map fun d => .text d.text), ("open", some (.bool m.isOpen))]

def ofJson? (v : Json) : Option Milestone := do
  match ← v.fields? ["number", "title", "due_on", "open"] with
  | [number, title, dueOn, isOpen] =>
    return ⟨← Json.required Json.word32? number, ← Json.required Json.text? title,
      ← Json.optional Json.date? dueOn, ← Json.defaulted true Json.bool? isOpen⟩
  | _ => none

end Milestone

namespace Issue

def State.toJson (s : State) : Json := .text s.word

def State.ofJson? : Json → Option State := Json.word? [("open", opened), ("closed", closed)]

def Kind.toJson (k : Kind) : Json := .text k.storedWord

def Kind.ofJson? : Json → Option Kind := Json.word? [("issue", issue), ("pull_request", pullRequest)]

def toJson (i : Issue) : Json :=
  .record [("id", some (.word32 i.id)), ("title", some (.text i.title)), ("body", some (.text i.body)),
    ("author", some (.text i.author)), ("created_at", some (.instant i.createdAt)),
    ("updated_at", some (.instant i.updatedAt)), ("state", some i.state.toJson),
    ("kind", some i.kind.toJson), ("assignee", i.assignee.map User.toJson),
    ("milestone", i.milestone.map Milestone.toJson),
    ("labels", if i.labels.isEmpty then none else some (.array (i.labels.map Label.toJson))),
    ("parent", i.parent.map .word32), ("comments", some (.word32 i.comments))]

def ofJson? (v : Json) : Option Issue := do
  match ← v.fields? ["id", "title", "body", "author", "created_at", "updated_at", "state", "kind",
    "assignee", "milestone", "labels", "parent", "comments"] with
  | [id, title, body, author, createdAt, updatedAt, state, kind, assignee, milestone, labels, parent,
      comments] =>
    return ⟨← Json.required Json.word32? id, ← Json.required Json.text? title,
      ← Json.defaulted "" Json.text? body, ← Json.required Json.text? author,
      ← Json.required Json.instant? createdAt, ← Json.required Json.instant? updatedAt,
      ← Json.defaulted .opened State.ofJson? state, ← Json.defaulted .issue Kind.ofJson? kind,
      ← Json.optional User.ofJson? assignee, ← Json.optional Milestone.ofJson? milestone,
      ← Json.defaulted [] (Json.list? Label.ofJson?) labels, ← Json.optional Json.word32? parent,
      ← Json.defaulted 0 Json.word32? comments⟩
  | _ => none

end Issue

end IssueQuery
