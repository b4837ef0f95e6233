/-
Finding one text inside another, exactly or ignoring case.
-/
import IssueQuery.Text.Lower

namespace IssueQuery.Text

/-- Whether the characters of `needle` stand next to each other somewhere in the list. -/
def holds (needle : List Char) : List Char → Bool
  | [] => needle.isEmpty
  | c :: cs => needle.isPrefixOf (c :: cs) || holds needle cs

theorem holds_iff {needle hay : List Char} : holds needle hay = true ↔ needle <:+: hay := by
  induction hay with
  | nil => simp [holds]
  | cons c cs ih => simp [holds, ih, List.infix_cons_iff]

/-- Whether one text occurs in another. -/
def occurs (needle hay : String) : Bool := holds needle.toList hay.toList

/-- Whether the lower-case text `needle` occurs in `hay` put in lower case. -/
def occursFolded (needle hay : String) : Bool := occurs needle (lower hay)

theorem occurs_iff {needle hay : String} : occurs needle hay = true ↔ needle.toList <:+: hay.toList := by
  simp [occurs, holds_iff]

/-- Equality ignoring the case of ASCII letters. -/
def sameAsciiFolded (a b : String) : Bool := a.toList.map Char.toLower == b.toList.map Char.toLower

end IssueQuery.Text
