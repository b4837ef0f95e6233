/-
Qualifiers, the leaves of a filter: a name with content, or the empty one that asks for nothing.
-/
import IssueQuery.Qualifier.Content
import IssueQuery.Qualifier.Kind

namespace IssueQuery

/-- Why a well-formed part of a filter has no meaning. -/
inductive SemanticError
  | unboundedRange
  | wrongContent (name : String) (content : Qualifier.Content)
  | repeatedField
  | badField (content : Qualifier.Content)
  deriving DecidableEq

def SemanticError.message : SemanticError → String
  | unboundedRange => "semantic error: a range needs at least one bound"
  | wrongContent name content =>
    "semantic error: qualifier " ++ name ++ " cannot take content " ++ content.display
  | repeatedField => "semantic error: more than one in: qualifier"
  | badField content => "semantic error: in: takes a field name, not " ++ content.display

/-- A leaf of a filter. -/
inductive Qualifier
  | empty
  | named (name : String) (content : Qualifier.Content)
  deriving DecidableEq

namespace Qualifier

/-- A search for a text in titles and bodies. -/
def keyword (s : String) : Qualifier := named Kind.keyword.name (.text s)

/-- The qualifier with the given content, its name put in lower case. Sort keys belong to the sort
qualifier and to no other. -/
def make? (name : String) (content : Content) : Except SemanticError Qualifier :=
  let plain := Text.lower (String.ofList (Text.trim name.toList))
  if decide (Kind.ofName plain = .sort) == content.isSortKeys then .ok (named plain content)
  else .error (.wrongContent plain content)

def name : Qualifier → String
  | empty => ""
  | named name _ => name

/-- What the qualifier is about, as its name tells. -/
def kind : Qualifier → Kind
  | empty => .empty
  | named name _ => Kind.ofName name

def content : Qualifier → Content
  | empty => .text ""
  | named _ content => content

def isEmpty : Qualifier → Bool
  | empty => true
  | named .. => false

def isMeta (q : Qualifier) : Bool := q.kind.isMeta

/-- Whether an issue can be changed to satisfy the qualifier. -/
def isApplicable (q : Qualifier) : Bool := q.kind.isApplicable

/-- The qualifier in the notation of filters; a keyword is written without its name. -/
def text : Qualifier → String
  | empty => ""
  | named name content =>
    if Kind.ofName name = .keyword then content.display else name ++ ":" ++ content.display

end Qualifier

end IssueQuery
