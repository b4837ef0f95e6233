/-
Applying a filter to an issue of a model.
-/
import IssueQuery.Project.Error

namespace IssueQuery

/-- What the application of a filter comes to. -/
inductive Outcome
  /-- The issue is already as the filter asks. -/
  | unchanged
  | updated (i : Issue)
  deriving DecidableEq

namespace Outcome

/-- The model with the outcome for an issue put in. -/
def commit (m : Model) (id : UInt32) : Outcome → Model
  | unchanged => m
  | updated i => m.update id fun _ => i

end Outcome

/-- Why a filter is not applicable to an issue. Of a plain conjunction the first qualifier that is
not applicable tells its own reason. -/
def Filter.whyNotApplicable (f : Filter) (m : Model) (i : Issue) : ProjectError :=
  if f.isConjunction then
    match f.qualifiers.findSome? fun q =>
      if q.isApplicable then none
      else
        match q.apply m i with
        | .error e => some e
        | .ok _ => none with
    | some e => .filter (.inapplicable e)
    | none => .notApplicable f
  else .notApplicable f

/-- The outcome of applying a filter to the issue of a number. -/
def Model.applyFilter (m : Model) (id : UInt32) (f : Filter) : Except ProjectError Outcome := do
  if f.isEmpty then throw .emptyFilter
  let some before := m.issue? id | throw (.issueNotFound id)
  if !f.isApplicable then throw (f.whyNotApplicable m before)
  let after ← (f.apply m before).mapError fun e => .filter (.inapplicable e)
  if after = before then return .unchanged
  let _ ← (Scope.ofFilter? f).mapError fun e => ProjectError.filter (.meaningless e)
  return .updated after

/-- The application of a filter to the issue of a number. What comes of it is kept in the model if the
application commits. -/
structure Application where
  id : UInt32
  filter : Filter
  commits : Bool
  deriving DecidableEq

/-- The outcome of an application, and the model after it. -/
def Model.perform (m : Model) (a : Application) : Except ProjectError Outcome × Model :=
  match m.applyFilter a.id a.filter with
  | .error e => (.error e, m)
  | .ok outcome => (.ok outcome, if a.commits then outcome.commit m a.id else m)

end IssueQuery
