/-
Filters: qualifiers joined by conjunction, disjunction and negation. Restricting a filter to some
of its qualifiers drops the others together with the connectives that only they needed.
-/
import IssueQuery.Qualifier

namespace IssueQuery

inductive Filter
  | leaf (q : Qualifier)
  | and (left right : Filter)
  | or (left right : Filter)
  | not (inner : Filter)
  deriving DecidableEq

namespace Filter

/-- The filter that every issue satisfies. -/
def empty : Filter := leaf .empty

/-- Whether the filter is the empty one, under any number of negations. -/
def isEmpty : Filter → Bool
  | leaf q => q.isEmpty
  | not inner => inner.isEmpty
  | and .. | or .. => false

/-- The qualifiers from left to right. -/
def qualifiers : Filter → List Qualifier
  | leaf q => [q]
  | and left right | or left right => left.qualifiers ++ right.qualifiers
  | not inner => inner.qualifiers

/-- The kinds of the qualifiers from left to right. -/
def kinds (f : Filter) : List Qualifier.Kind := f.qualifiers.map Qualifier.kind

/-- The qualifiers that satisfy `p`, from left to right. -/
def find (p : Qualifier → Bool) (f : Filter) : List Qualifier := f.qualifiers.filter p

/-! ## Restriction -/

/-- Joins two filters unless one of them is empty. -/
def join (connective : Filter → Filter → Filter) (left right : Filter) : Filter :=
  if left.isEmpty then right else if right.isEmpty then left else connective left right

/-- The filter made of the qualifiers that satisfy `p`, joined as in the whole. -/
def restrict (p : Qualifier → Bool) : Filter → Filter
  | leaf q => if p q then leaf q else empty
  | and left right => join and (left.restrict p) (right.restrict p)
  | or left right => join or (left.restrict p) (right.restrict p)
  | not inner => if (inner.restrict p).isEmpty then empty else not (inner.restrict p)

/-! ## Applicability -/

/-- The kinds of which an issue can satisfy only one qualifier; it may have many labels. -/
def exclusiveKinds (f : Filter) : List Qualifier.Kind :=
  f.kinds.filter fun k => k != .label && k != .empty

/-- Whether an issue can be changed to satisfy the filter: it is a conjunction of applicable
qualifiers in which no kind repeats where only one can hold. -/
def isApplicable : Filter → Bool
  | leaf q => q.isApplicable
  | and left right =>
    decide (and left right).exclusiveKinds.Nodup && left.isApplicable && right.isApplicable
  | or .. | not _ => false

/-- Whether the filter has no connective but conjunction. -/
def isConjunction : Filter → Bool
  | leaf _ => true
  | and left right => left.isConjunction && right.isConjunction
  | or .. | not _ => false

end Filter

end IssueQuery
