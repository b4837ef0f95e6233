/-
Changing an issue so that it satisfies a filter. Only qualifiers that name one field which may
change can be applied; part of a name is enough where one entry of the model fits it.
-/
import IssueQuery.Filter.Match

namespace IssueQuery

/-- What of an issue cannot be changed. -/
inductive Fixture
  | text | id | creation | update | author | type
  deriving DecidableEq, Repr

def Fixture.reason : Fixture → String
  | text => "issue text cannot be changed by dragging"
  | id => "id is immutable"
  | creation => "cannot change issue creation date"
  | update => "cannot change issue update time"
  | author => "cannot change author of issue"
  | type => "cannot change the type of an issue"

/-- Why a filter cannot be applied to an issue. -/
inductive ApplyError
  | immutable (what : Fixture)
  | manyWays (qualifier : String)
  | involvement
  | ambiguous (field : String) (candidates : List String)
  | noMatch (field query : String)
  | invalidContent (field content : String)
  | notConjunction
  deriving DecidableEq

def ApplyError.message : ApplyError → String
  | immutable what => "unnecessary filter: " ++ what.reason
  | manyWays qualifier => "ambiguous filter: " ++ qualifier
  | involvement => "ambiguous filter: cannot change users involved with issue"
  | ambiguous field candidates =>
    "ambiguous filter: can apply any of the following " ++ field ++ ": " ++ ", ".intercalate candidates
  | noMatch field query =>
    "invalid " ++ field ++ " '" ++ query ++ "'\n  hint: nothing in the model matches"
  | invalidContent field content => "invalid content for " ++ field ++ ": " ++ content
  | notConjunction => "only conjunctions can be applied"

/-- The one candidate whose key has the query as a part, in any case. Among several, the only one
whose key is the query is taken. -/
def resolve {α : Type} (field query : String) (key : α → String) (candidates : List α) :
    Except ApplyError α :=
  match candidates.filter fun c => Text.occursFolded (Text.lower query) (key c) with
  | [] => .error (.noMatch field query)
  | [only] => .ok only
  | several =>
    match several.filter fun c => Text.lower (key c) == Text.lower query with
    | [only] => .ok only
    | _ => .error (.ambiguous field (several.map key))

namespace Qualifier

/-- The text that the content gives for a field. -/
def textFor (field : String) (c : Content) : Except ApplyError String :=
  match c.asText? with
  | some s => .ok s
  | none => .error (.invalidContent field c.display)

def applyMilestone (c : Content) (m : Model) (i : Issue) : Except ApplyError Issue := do
  let query ← textFor "milestone" c
  let milestone ← resolve "milestones" query (·.title) m.milestones
  return { i with milestone := some milestone }

def applyLabel (c : Content) (m : Model) (i : Issue) : Except ApplyError Issue := do
  let query ← textFor "label" c
  let label ← resolve "labels" query (·.fullName) m.labels
  return { i with labels := Issue.addLabel label i.labels }

def applyAssignee (c : Content) (m : Model) (i : Issue) : Except ApplyError Issue := do
  let query ← textFor "assignee" c
  let user ← resolve "assignees" query (·.login) m.users
  return { i with assignee := some user }

def applyState (c : Content) (i : Issue) : Except ApplyError Issue := do
  let word := Text.lower (← textFor "state" c)
  match Content.stateIn? word with
  | some state => return { i with state := state }
  | none => throw (.invalidContent "state" word)

/-- The parent that a text gives: a number, or part of the title of another issue. -/
def parentFor (query : String) (m : Model) (i : Issue) : Except ApplyError UInt32 :=
  match Issue.idOf? query with
  | some id => .ok id
  | none => (resolve "parents" query (·.title) (m.issues.filter (·.id != i.id))).map (·.id)

/-- Sets the parent. It must be in the model, and neither the issue itself nor below it. -/
def applyParent (c : Content) (m : Model) (i : Issue) : Except ApplyError Issue := do
  let query ← textFor "parent" c
  let parent ← parentFor query m i
  match m.issue? parent with
  | none => throw (.noMatch "parents" query)
  | some target =>
    if parent == i.id || m.hasAncestor target i.id then throw (.invalidContent "parent" query)
    else return { i with parent := some parent }

/-- The issue changed in the field that the qualifier names. -/
def apply (q : Qualifier) (m : Model) (i : Issue) : Except ApplyError Issue :=
  match q.kind with
  | .empty | .field | .sort => .ok i
  | .keyword | .title | .body => .error (.immutable .text)
  | .id => .error (.immutable .id)
  | .created => .error (.immutable .creation)
  | .updated => .error (.immutable .update)
  | .author => .error (.immutable .author)
  | .type => .error (.immutable .type)
  | .has | .no | .is => .error (.manyWays q.name)
  | .involves => .error .involvement
  | .unknown => .error (.invalidContent "qualifier" q.name)
  | .milestone => applyMilestone q.content m i
  | .label => applyLabel q.content m i
  | .assignee => applyAssignee q.content m i
  | .state => applyState q.content i
  | .parent => applyParent q.content m i

end Qualifier

namespace Filter

/-- The issue changed by the qualifiers of a conjunction, from left to right. -/
def apply (m : Model) : Filter → Issue → Except ApplyError Issue
  | leaf q, i => q.apply m i
  | and left right, i => do right.apply m (← left.apply m i)
  | or .., _ | not _, _ => .error .notConjunction

/-- What comes of applying the filter to an issue in its place, and the issue after it. A conjunction is
applied to a copy, which takes the place of the issue once both sides have been applied. -/
def applyTo (m : Model) : Filter → Issue → Except ApplyError Unit × Issue
  | leaf q, i =>
    match q.apply m i with
    | .error e => (.error e, i)
    | .ok after => (.ok (), after)
  | and left right, i =>
    match left.applyTo m i with
    | (.error e, _) => (.error e, i)
    | (.ok (), staged) =>
      match right.applyTo m staged with
      | (.error e, _) => (.error e, i)
      | (.ok (), after) => (.ok (), after)
  | or .., i | not _, i => (.error .notConjunction, i)

/-- In its place an issue becomes what the filter makes of it, or stays as it is. -/
theorem applyTo_eq (m : Model) (f : Filter) (i : Issue) : f.applyTo m i =
    match f.apply m i with
    | .error e => (.error e, i)
    | .ok after => (.ok (), after) := by
  induction f generalizing i with
  | leaf q => rfl
  | and left right ihl ihr =>
    rw [applyTo, ihl]
    cases hleft : left.apply m i with
    | error e =>
      have hfails : (and left right).apply m i = .error e := by rw [apply, hleft]; rfl
      rw [hfails]
    | ok staged =>
      have hstaged : (and left right).apply m i = right.apply m staged := by rw [apply, hleft]; rfl
      dsimp only
      rw [hstaged, ihr]
      cases right.apply m staged <;> rfl
  | or left right | not inner => rfl

end Filter

end IssueQuery
