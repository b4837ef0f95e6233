/-
Colour on terminals: when it is wanted, how a text is painted, and how the lines of an example are.
-/
import IssueQuery.Issue
import IssueQuery.Text.Lines

namespace IssueQuery

/-- Whether there should be colour: what the environment asks for, and whether the output goes to a
terminal. -/
structure ColourChoice where
  off : Bool
  forced : Bool
  terminal : Bool

namespace ColourChoice

/-- The choice that the variables NO_COLOR and COLOR make; only the value 1 counts. -/
def ofVariables (noColor color : Option String) (terminal : Bool) : ColourChoice :=
  ⟨noColor == some "1", color == some "1", terminal⟩

/-- A terminal gets colour, and any output if it is forced, but none if it is off. -/
def isWanted (c : ColourChoice) : Bool := !c.off && (c.forced || c.terminal)

end ColourChoice

namespace Colour

/-! ## Painting -/

/-- A text in a colour of the palette of 256. -/
def paint (colour : Nat) (s : String) : String :=
  "\x1b[38;5;" ++ toString colour ++ "m" ++ s ++ "\x1b[0m"

/-- A heading. -/
def header (s : String) : String := paint 74 s

/-- A command or another literal. -/
def literal (s : String) : String := paint 250 s

/-- A hint. -/
def context (s : String) : String := paint 245 s

/-- The word for a state. The flag is the answer of `ColourChoice.isWanted`: whoever writes a word in colour has
asked for it, and it is asked for once more at each word. A run has one choice, so both answers are the same. -/
def state (coloured : Bool) (s : Issue.State) : String :=
  if coloured then paint (match s with | .opened => 108 | .closed => 139) s.word else s.word

/-- A text painted if colour is wanted. -/
def painted (coloured : Bool) (style : String → String) (s : String) : String :=
  if coloured then style s else s

/-! ## Examples -/

/-- Splits before the first two blanks. -/
def splitAtGap : List Char → Option (List Char × List Char)
  | ' ' :: ' ' :: cs => some ([], ' ' :: ' ' :: cs)
  | c :: cs => (splitAtGap cs).map fun (front, gap) => (c :: front, gap)
  | [] => none

/-- The command and the description of a line, which two blanks or more stand between. -/
def splitDescription (line : List Char) : Option (List Char × List Char) :=
  (splitAtGap line).filter fun (_, gap) => !(Text.trimStart gap).isEmpty

/-- A line of an example: a heading if it ends in a colon, or else a command before a description. -/
def exampleLine (line : List Char) : String :=
  let indent := line.takeWhile Text.isBlank
  let body := line.dropWhile Text.isBlank
  if body.getLast? == some ':' && (splitAtGap body).isNone then
    String.ofList indent ++ header (String.ofList body)
  else
    match splitDescription body with
    | some (command, description) =>
      String.ofList indent ++ literal (String.ofList command) ++ String.ofList description
    | none => String.ofList line

/-- A text of examples, painted line by line. The flag is the answer of `ColourChoice.isWanted` here too. -/
def examples (coloured : Bool) (s : String) : String :=
  if coloured then "\n".intercalate ((Text.lines s.toList).map exampleLine) else s

end Colour

end IssueQuery
