/-
What stands after the colon of a qualifier, and how it is written.
-/
import IssueQuery.Calendar.Notation
import IssueQuery.Range
import IssueQuery.Token.Lexer

namespace IssueQuery

/-- What issues are sorted by, and whether the order is reversed. -/
structure SortKey where
  key : String
  descending : Bool
  deriving DecidableEq, Repr

/-- A key in the notation of filters. -/
def SortKey.text (k : SortKey) : String := (if k.descending then "~" else "") ++ k.key

namespace Qualifier

inductive Content
  | text (s : String)
  | date (d : Date)
  | dates (r : Range Date)
  | number (n : Int)
  | numbers (r : Range Int)
  | sortKeys (keys : List SortKey)
  deriving DecidableEq

namespace Content

/-- The content as a text to search for, if it is a text or a single number. -/
def asText? : Content → Option String
  | text s => some s
  | number n => some (toString n)
  | _ => none

def isSortKeys : Content → Bool
  | sortKeys _ => true
  | _ => false

/-- Whether a text must be quoted: without quotes it would be a number, or no single symbol. -/
def needsQuotes (s : String) : Bool := (Text.int64? s).isSome || !Token.isSymbol s

/-- The content in the notation of filters. -/
def display : Content → String
  | text s => if needsQuotes s then "\"" ++ s ++ "\"" else s
  | date d => d.text
  | dates r => r.text Date.text
  | number n => toString n
  | numbers r => r.text toString
  | sortKeys keys => ",".intercalate (keys.map SortKey.text)

end Content

end Qualifier

end IssueQuery
