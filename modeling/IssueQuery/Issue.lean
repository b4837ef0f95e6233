/-
Issues and what they refer to: users, milestones, labels, and the words for their state and kind.
-/
import IssueQuery.Calendar.Instant
import IssueQuery.Issue.Label
import IssueQuery.Text.Search

namespace IssueQuery

/-! ## Users and milestones -/

/-- A user, with a display name and a nickname of the project's own if there are such. -/
structure User where
  login : String
  name : Option String
  nickname : Option String
  deriving DecidableEq

/-- Whether a text in lower case is part of one of the user's names. -/
def User.goesBy (u : User) (needle : String) : Bool :=
  Text.occursFolded needle u.login || u.name.any (Text.occursFolded needle) ||
    u.nickname.any (Text.occursFolded needle)

structure Milestone where
  number : UInt32
  title : String
  dueOn : Option Date
  isOpen : Bool
  deriving DecidableEq

/-! ## States and kinds -/

namespace Issue

inductive State
  | opened | closed
  deriving DecidableEq, Repr

inductive Kind
  | issue | pullRequest
  deriving DecidableEq, Repr

/-- A word that names no state, or no kind. -/
inductive WordError
  | state (word : String)
  | kind (word : String)
  deriving DecidableEq

def WordError.message : WordError → String
  | state word => "invalid state: '" ++ word ++ "'\n  hint: valid states are: open, closed"
  | kind word => "invalid issue kind: '" ++ word ++ "'\n  hint: valid kinds are: issue, pr"

/-- The word for a state. -/
def State.word : State → String
  | opened => "open"
  | closed => "closed"

/-- The state that a word names, in any case. -/
def State.ofWord? (word : String) : Except WordError State :=
  match Text.lower word with
  | "open" => .ok opened
  | "closed" => .ok closed
  | _ => .error (.state word)

/-- The word for a kind. -/
def Kind.word : Kind → String
  | issue => "issue"
  | pullRequest => "pr"

/-- The word for a kind in stored issues. -/
def Kind.storedWord : Kind → String
  | issue => "issue"
  | pullRequest => "pull_request"

/-- The kind that a word names, in any case. -/
def Kind.ofWord? (word : String) : Except WordError Kind :=
  match Text.lower word with
  | "issue" => .ok issue
  | "pr" | "pullrequest" | "pull_request" => .ok pullRequest
  | _ => .error (.kind word)

end Issue

/-! ## Issues -/

/-- An issue or pull request. -/
structure Issue where
  id : UInt32
  title : String
  body : String
  author : String
  createdAt : Instant
  updatedAt : Instant
  state : Issue.State
  kind : Issue.Kind
  assignee : Option User
  milestone : Option Milestone
  labels : List Label
  parent : Option UInt32
  comments : UInt32
  deriving DecidableEq

namespace Issue

def isOpen (i : Issue) : Bool := i.state == .opened

def isPullRequest (i : Issue) : Bool := i.kind == .pullRequest

/-- The group of a label in lower case. -/
def foldedGroup? (l : Label) : Option String := l.group?.map Text.lower

/-- The labels with one more. It takes the place of those in its group if the group is exclusive; a
label that is there already changes nothing. -/
def addLabel (label : Label) (labels : List Label) : List Label :=
  if labels.contains label then labels
  else if label.isExclusive then labels.filter (foldedGroup? · != foldedGroup? label) ++ [label]
  else labels ++ [label]

end Issue

end IssueQuery
