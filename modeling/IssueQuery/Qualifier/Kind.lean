/-
The kinds of qualifier: the names that each goes by, what content users may give it, and how it
takes part in matching and in application.
-/
import IssueQuery.Text.Lower

namespace IssueQuery.Qualifier

/-- What a qualifier is about. The empty kind matches everything, the unknown one nothing. -/
inductive Kind
  | empty | unknown | keyword | id | title | body | milestone | parent | label | author | assignee
  | involves | type | state | has | no | is | created | updated | sort | field
  deriving DecidableEq, Repr

namespace Kind

/-! ## Names -/

/-- All names that are recognised; of a kind with several, the first is the canonical one. -/
def names : List (String × Kind) :=
  [("id", id), ("keyword", keyword), ("title", title), ("body", body), ("desc", body),
    ("description", body), ("milestone", milestone), ("m", milestone), ("parent", parent),
    ("label", label), ("author", author), ("creator", author), ("assignee", assignee),
    ("as", assignee), ("involves", involves), ("user", involves), ("type", type), ("state", state),
    ("status", state), ("has", has), ("no", no), ("is", is), ("created", created),
    ("updated", updated), ("sort", sort), ("in", field)]

/-- The kind that goes by a name, in any case and with any blanks around it. -/
def ofName (name : String) : Kind :=
  let plain := Text.lower (String.ofList (Text.trim name.toList))
  ((names.find? fun (n, _) => n == plain).map (·.2)).getD unknown

/-- The canonical name. -/
def name (k : Kind) : String :=
  if k = unknown then "false" else ((names.find? fun (_, l) => l == k).map (·.1)).getD ""

/-- The other names. -/
def aliases (k : Kind) : List String :=
  (names.filter fun (n, l) => l == k && n != k.name).map (·.1)

/-- All names, in the order in which they are suggested. -/
def keywords : List String := names.map (·.1)

/-- The kinds that have a name, in the order in which they are listed. -/
def named : List Kind := (names.map (·.2)).eraseDups

/-! ## Roles -/

/-- What users may give a qualifier of the kind. -/
def inputs : Kind → String
  | id => "issue number, #number, or a number range (id:1..5 is text)"
  | keyword | title | body => "any text; quote to include spaces"
  | milestone => "part of a milestone title"
  | parent => "issue number or #number; matches descendants too"
  | label => "label name, group.name, group-name, or group."
  | author | assignee | involves => "part of a login, display name or alias"
  | type => "issue or pr"
  | state => "open or closed"
  | has | no => "label, milestone, assignee or parent"
  | is => "open, closed, pr, issue, merged or unmerged"
  | created => "date (YYYY-MM-DD), date .. date, or <, <=, >, >= date"
  | updated => "hours since update: N (< N), N .. M, or <, <=, >, >= N"
  | sort => "comma-separated keys; prefix ~ to reverse"
  | field => "title or body; restricts bare keywords"
  | empty | unknown => ""

/-- Whether the kind tests no issue itself but changes how a filter works. -/
def isMeta : Kind → Bool
  | field | sort => true
  | _ => false

/-- Whether an issue can be changed to satisfy a qualifier of the kind. -/
def isApplicable : Kind → Bool
  | milestone | label | assignee | state | parent | field | sort | empty => true
  | _ => false

end Kind

end IssueQuery.Qualifier
