/-
Labels. A label name may put the label into a group: the group comes first, then a delimiter, then
the name within the group. A full stop makes the group exclusive, a hyphen does not.
-/

namespace IssueQuery

/-- The parts of a label name that has a group. -/
structure GroupedName where
  group : String
  name : String
  delimiter : Char
  deriving DecidableEq, Repr

namespace GroupedName

def exclusiveDelimiter : Char := '.'

def openDelimiter : Char := '-'

def isDelimiter (c : Char) : Bool := c == exclusiveDelimiter || c == openDelimiter

/-- Splits a name at its first delimiter, unless the name begins with it. -/
def ofText? (s : String) : Option GroupedName :=
  match s.toList.takeWhile (!isDelimiter ·), s.toList.dropWhile (!isDelimiter ·) with
  | c :: group, delimiter :: name => some ⟨String.ofList (c :: group), String.ofList name, delimiter⟩
  | _, _ => none

end GroupedName

structure Label where
  fullName : String
  deriving DecidableEq, Repr

namespace Label

def grouped? (l : Label) : Option GroupedName := GroupedName.ofText? l.fullName

/-- The group that the label belongs to, if any. -/
def group? (l : Label) : Option String := l.grouped?.map (·.group)

/-- The name within the group, or the full name. -/
def name (l : Label) : String := (l.grouped?.map (·.name)).getD l.fullName

/-- Whether an issue can have only one label of the group. -/
def isExclusive (l : Label) : Bool := l.grouped?.any (·.delimiter == GroupedName.exclusiveDelimiter)

end Label

end IssueQuery
