/-
Filters as text. The parser reads the text of a parsed filter as the same filter again, so brackets
stand where it would group otherwise.
-/
import IssueQuery.Filter.Basic

namespace IssueQuery.Filter

/-- The filter between brackets if it is a conjunction; conjunctions group to the left and bind
more loosely than negation. -/
def guarded (f : Filter) (text : String) : String :=
  match f with
  | and .. => "(" ++ text ++ ")"
  | _ => text

/-- The filter in its canonical notation. -/
def text : Filter → String
  | leaf q => q.text
  | and left right => left.text ++ " " ++ guarded right right.text
  | or left right => "(" ++ left.text ++ " OR " ++ right.text ++ ")"
  | not inner => "NOT " ++ guarded inner inner.text

end IssueQuery.Filter
