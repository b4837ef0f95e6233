/-
The ways in which a text fails to be a filter, each with the place where it fails and the message
that says so.
-/
import IssueQuery.Token

namespace IssueQuery

/-- What is wrong with a lexeme where it stands. -/
inductive Misplacement
  | notOperand (found : Lexeme)
  | afterFilter (found : Lexeme)
  | unclosedBracket (found : Lexeme)
  | noContent (qualifier : String) (found : Lexeme)
  | noBound (qualifier : String) (operator : Token.Kind) (found : Lexeme)
  | badContent (qualifier : String) (found : Lexeme)
  | unclosedQuote (found : Lexeme)
  | inQuotes (found : Lexeme)
  | noSuchDate (found : Lexeme)
  deriving DecidableEq, Repr

namespace Misplacement

def found : Misplacement → Lexeme
  | notOperand l | afterFilter l | unclosedBracket l | noContent _ l | noBound _ _ l | badContent _ l
  | unclosedQuote l | inQuotes l | noSuchDate l => l

def message : Misplacement → String
  | notOperand l => "Unexpected " ++ l.display
  | afterFilter l => "Unexpected " ++ l.display ++ " after end of filter"
  | unclosedBracket l => "Expected " ++ Token.Kind.closeBracket.name ++ " but got " ++ l.display
  | noContent q _ => "Qualifier " ++ q ++ " must be given an input"
  | noBound q op _ => "Qualifier " ++ q ++ " needs a date or number after " ++ op.name
  | badContent q l => "Invalid content for qualifier " ++ q ++ ": " ++ l.display
  | unclosedQuote _ => "Unterminated quote"
  | inQuotes l => "Unexpected " ++ l.display ++ " inside quotes"
  | noSuchDate l => "Invalid date " ++ l.text

end Misplacement

/-- Why a text is not a filter. -/
inductive SyntaxError
  | unrecognised (c : Char) (offset : Nat)
  | endedEarly (offset : Nat)
  | misplaced (problem : Misplacement)
  deriving DecidableEq, Repr

namespace SyntaxError

/-- The byte at which the fault lies. -/
def offset : SyntaxError → Nat
  | unrecognised _ offset => offset
  | endedEarly offset => offset
  | misplaced problem => problem.found.offset

def message : SyntaxError → String
  | unrecognised c offset => "unrecognised token '" ++ c.toString ++ "' at " ++ toString offset
  | endedEarly offset => "input unexpectedly ended at position " ++ toString offset
  | misplaced problem => "parse error at " ++ toString problem.found.offset ++ ": " ++ problem.message

/-- Whether the fault is that a text of `stop` bytes stopped too early: it lies at the end, and is
no foreign character. -/
def isUnfinished (stop : Nat) : SyntaxError → Bool
  | unrecognised .. => false
  | e => decide (stop ≤ e.offset)

end SyntaxError

end IssueQuery
