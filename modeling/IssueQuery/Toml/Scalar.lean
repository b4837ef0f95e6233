/-
The TOML notations of values that are neither strings nor made of other values.
-/
import IssueQuery.Toml
import IssueQuery.Toml.Number

namespace IssueQuery.Toml

def isBoolean (cs : List Char) : Bool := cs == "true".toList || cs == "false".toList

/-- The scalar that the characters denote, other than a string. -/
def ofScalar? (cs : List Char) : Option Toml :=
  if isBoolean cs || isNumber cs then some scalar else (time? cs).map time

end IssueQuery.Toml
