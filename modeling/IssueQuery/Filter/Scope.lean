/-
The meta-qualifiers of a filter: the field that its bare keywords search, and the keys that its
issues are sorted by.
-/
import IssueQuery.Filter.Basic

namespace IssueQuery

/-- What the meta-qualifiers of a filter say about it. -/
structure Scope where
  field : Option String
  sortKeys : List SortKey
  deriving DecidableEq

namespace Scope

/-- The scope of a filter without meta-qualifiers. -/
def whole : Scope := ⟨none, []⟩

/-- The scope with one more meta-qualifier. There is at most one field, and it is a text; sort keys
add up. -/
def add (s : Scope) (q : Qualifier) : Except SemanticError Scope :=
  match q.kind, q.content with
  | .field, content =>
    if s.field.isSome then .error .repeatedField
    else
      match content with
      | .text name => .ok ⟨some (Text.lower name), s.sortKeys⟩
      | _ => .error (.badField content)
  | .sort, .sortKeys keys => .ok ⟨s.field, s.sortKeys ++ keys⟩
  | _, _ => .ok s

/-- The scope that the meta-qualifiers of a filter make up, from left to right. -/
def ofFilter? (f : Filter) : Except SemanticError Scope := (f.find Qualifier.isMeta).foldlM add whole

end Scope

end IssueQuery
