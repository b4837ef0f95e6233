/-
Lower case of a whole text. Every character has its own image but two: capital sigma takes its
final form at the end of a word, and capital I with a dot becomes two characters.
-/
import IssueQuery.Text.Blank
import IssueQuery.Text.Lower.Table

namespace IssueQuery.Text

/-! ## One character -/

/-- The lower-case form of a character out of context. -/
def lowerChar (c : Char) : List Char :=
  if c.toNat < 128 then [c.toLower]
  else if c == 'İ' then ['i', Char.ofNat 0x307]
  else [((caseRuns.findSome? (·.imageOf? c.toNat)).map Char.ofNat).getD c]

def isCased (c : Char) : Bool := inRanges casedRanges c

def isCaseIgnorable (c : Char) : Bool := inRanges ignorableRanges c

/-! ## A text -/

/-- Whether a cased character comes next, case-ignorable ones passed over. -/
def startsCased (cs : List Char) : Bool :=
  (cs.dropWhile isCaseIgnorable).head?.any isCased

/-- The lower case of the characters; `afterCased` tells whether a cased character came before,
case-ignorable ones passed over. A capital sigma ends its word, and becomes the final form, when
a cased character comes before it and none comes after. -/
def lowerFrom (afterCased : Bool) : List Char → List Char
  | [] => []
  | c :: cs =>
    let image := if c == 'Σ' then (if afterCased && !startsCased cs then ['ς'] else ['σ']) else lowerChar c
    image ++ lowerFrom (if isCaseIgnorable c then afterCased else isCased c) cs

/-- The text in lower case. -/
def lower (s : String) : String := String.ofList (lowerFrom false s.toList)

end IssueQuery.Text
