/-
Which issues satisfy a filter. Texts match anywhere in a field and in any case; meta-qualifiers are
set aside before a filter is tested and only tell where bare keywords look.
-/
import IssueQuery.Filter.Scope
import IssueQuery.Model

namespace IssueQuery

/-- What a test needs besides the issue: the model around it, the scope of the filter, and the
time. -/
structure Setting where
  model : Model
  scope : Scope
  now : Instant

/-- The number that a text gives, with or without a number sign before it. -/
def Issue.idOf? (s : String) : Option UInt32 :=
  match s.toList with
  | '#' :: digits => Text.word32? digits
  | digits => Text.word32? digits

namespace Qualifier.Content

/-- The content as a text in lower case. -/
def needle? (c : Content) : Option String := c.asText?.map Text.lower

/-- Whether the content is a text that occurs in `hay`. -/
def occursIn (c : Content) (hay : String) : Bool := c.needle?.any fun needle => Text.occursFolded needle hay

/-- The number of a parent that the content gives. -/
def parentId? : Content → Option UInt32
  | number n => if 0 ≤ n then Text.word32OfNat? n.toNat else none
  | text s => Issue.idOf? s
  | _ => none

/-- Whether the content is the number of the issue, or a range that holds it. -/
def isIdOf (c : Content) (i : Issue) : Bool :=
  match c with
  | number n => n == i.id.toNat
  | numbers r => r.encloses (i.id.toNat : Int)
  | text s => Issue.idOf? s == some i.id
  | _ => false

/-- Whether the content occurs in the field that the scope names, or in title or body if it names
none. -/
def occursInScope (c : Content) (scope : Scope) (i : Issue) : Bool :=
  match scope.field with
  | none => c.occursIn i.title || c.occursIn i.body
  | some "title" => c.occursIn i.title
  | some "body" | some "desc" | some "description" => c.occursIn i.body
  | some _ => false

/-- Whether the content is the number of the issue or of one of its ancestors. -/
def isAncestorOf (c : Content) (m : Model) (i : Issue) : Bool :=
  c.parentId?.any fun p => i.id == p || m.hasAncestor i p

/-- Whether the content fits one of the labels: with a group, both parts must occur in the parts of
the label; without, the text in its name. -/
def fitsLabel (c : Content) (labels : List Label) : Bool :=
  c.needle?.any fun needle =>
    match GroupedName.ofText? needle with
    | some wanted =>
      labels.any fun l => l.group?.any (Text.occursFolded wanted.group) &&
        Text.occursFolded wanted.name l.name
    | none => labels.any fun l => Text.occursFolded needle l.name

/-- Whether the content is part of the author's login, or of another name of that user. -/
def isAuthorOf (c : Content) (m : Model) (i : Issue) : Bool :=
  c.needle?.any fun needle =>
    Text.occursFolded needle i.author || (m.user? i.author).any (·.goesBy needle)

/-- Whether the content is part of a name of the assignee. -/
def isAssigneeOf (c : Content) (i : Issue) : Bool :=
  c.needle?.any fun needle => i.assignee.any (·.goesBy needle)

/-- Whether the content is the word for the issue's kind. -/
def isKindOf (c : Content) (i : Issue) : Bool :=
  match c.needle? with
  | some "issue" => !i.isPullRequest
  | some "pr" | some "pullrequest" => i.isPullRequest
  | _ => false

/-- The state that a text in lower case speaks of. -/
def stateIn? (s : String) : Option Issue.State :=
  if Text.occurs "open" s then some .opened
  else if Text.occurs "closed" s then some .closed
  else none

/-- Whether the content speaks of the issue's state. -/
def isStateOf (c : Content) (i : Issue) : Bool := c.needle?.bind stateIn? == some i.state

/-- Whether the content is the word for something that the issue has. -/
def isHadBy (c : Content) (i : Issue) : Bool :=
  match c.needle? with
  | some "label" | some "labels" => !i.labels.isEmpty
  | some "milestone" | some "milestones" => i.milestone.isSome
  | some "assignee" | some "assignees" => i.assignee.isSome
  | some "parent" | some "parents" => i.parent.isSome
  | _ => false

/-- Whether the content is a word for what the issue is. -/
def describes (c : Content) (i : Issue) : Bool :=
  match c.needle? with
  | some "open" | some "closed" => c.isStateOf i
  | some "pr" | some "issue" => c.isKindOf i
  | some "merged" => i.isPullRequest && !i.isOpen
  | some "unmerged" => i.isPullRequest && i.isOpen
  | _ => false

/-- Whether the content is the date of the issue's creation, or a range that holds it. -/
def isCreationOf (c : Content) (i : Issue) : Bool :=
  match c with
  | date d => i.createdAt.date == d
  | dates r => r.encloses i.createdAt.date
  | _ => false

/-- Whether the whole hours since the issue's update lie in the range, or below the number. -/
def isAgeOf (c : Content) (now : Instant) (i : Issue) : Bool :=
  let hours := Instant.hoursBetween i.updatedAt now
  match c with
  | numbers r => r.encloses hours
  | number n => (Range.below n true).encloses hours
  | _ => false

end Qualifier.Content

/-- Whether the issue satisfies the qualifier. Meta-qualifiers ask for nothing. -/
def Qualifier.isSatisfied (q : Qualifier) (s : Setting) (i : Issue) : Bool :=
  match q.kind with
  | .empty | .field | .sort => true
  | .unknown => false
  | .id => q.content.isIdOf i
  | .keyword => q.content.occursInScope s.scope i
  | .title => q.content.occursIn i.title
  | .body => q.content.occursIn i.body
  | .milestone => i.milestone.any fun m => q.content.occursIn m.title
  | .parent => q.content.isAncestorOf s.model i
  | .label => q.content.fitsLabel i.labels
  | .author => q.content.isAuthorOf s.model i
  | .assignee => q.content.isAssigneeOf i
  | .involves => q.content.isAuthorOf s.model i || q.content.isAssigneeOf i
  | .type => q.content.isKindOf i
  | .state => q.content.isStateOf i
  | .has => q.content.isHadBy i
  | .no => q.content.asText?.isSome && !q.content.isHadBy i
  | .is => q.content.describes i
  | .created => q.content.isCreationOf i
  | .updated => q.content.isAgeOf s.now i

namespace Filter

/-- Whether the issue satisfies the filter as it stands. -/
def isSatisfied (s : Setting) (i : Issue) : Filter → Bool
  | leaf q => q.isSatisfied s i
  | and left right => left.isSatisfied s i && right.isSatisfied s i
  | or left right => left.isSatisfied s i || right.isSatisfied s i
  | not inner => !inner.isSatisfied s i

/-- The filter without its meta-qualifiers. -/
def withoutMeta (f : Filter) : Filter := f.restrict fun q => !q.isMeta

/-- Whether the issue satisfies the filter, its meta-qualifiers set aside. -/
def accepts (f : Filter) (m : Model) (now : Instant) (i : Issue) : Except SemanticError Bool := do
  let scope ← Scope.ofFilter? f
  return f.withoutMeta.isSatisfied ⟨m, scope, now⟩ i

end Filter

end IssueQuery
