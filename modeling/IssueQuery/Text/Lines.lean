/-
The lines of a text.
-/

namespace IssueQuery.Text

/-- Splits at each line feed; what follows the last one is a piece too. -/
def splitLines : List Char → List (List Char)
  | [] => [[]]
  | '\n' :: cs => [] :: splitLines cs
  | c :: cs =>
    match splitLines cs with
    | [] => [[c]]
    | line :: more => (c :: line) :: more

/-- A line without the carriage return at its end, if it has one. -/
def withoutReturn (line : List Char) : List Char :=
  match line.reverse with
  | '\r' :: rest => rest.reverse
  | _ => line

/-- The lines of a text. A line ends with a line feed, which a carriage return may come before; the
last line may lack it. -/
def lines (cs : List Char) : List (List Char) :=
  match (splitLines cs).reverse with
  | [] => []
  | last :: ended =>
    (ended.map withoutReturn).reverse ++ if last.isEmpty then [] else [last]

end IssueQuery.Text
