/-
The tokens of the filter language: their kinds, the name of each kind, and how a token is shown in
messages.
-/
import IssueQuery.Text.Blank

namespace IssueQuery

namespace Token

/-- The lexical classes. -/
inductive Kind
  | and | or | not | date | qualifier | semicolon | symbol | openBracket | closeBracket
  | quote | comma | percent | dots | atMost | atLeast | below | above | star
  deriving DecidableEq, Repr

namespace Kind

/-- The name a kind goes by in messages. -/
def name : Kind → String
  | and => "AND"
  | or => "OR"
  | not => "NOT"
  | date => "DATE"
  | qualifier => "QUALIFIER"
  | semicolon => "SEMICOLON"
  | symbol => "SYMBOL"
  | openBracket => "LBRACKET"
  | closeBracket => "RBRACKET"
  | quote => "QUOTE"
  | comma => "COMMA"
  | percent => "PERCENT"
  | dots => "DOTDOT"
  | atMost => "LTE"
  | atLeast => "GTE"
  | below => "LT"
  | above => "GT"
  | star => "STAR"

/-- The four signs that open a half-open range. -/
def isRangeOperator : Kind → Bool
  | atMost | atLeast | below | above => true
  | _ => false

end Kind

end Token

/-- A lexeme: its class, its characters, and the byte at which it begins. -/
structure Token where
  kind : Token.Kind
  text : String
  offset : Nat
  deriving DecidableEq, Repr

namespace Token

/-- The name of a qualifier without its colon and the blanks before it. -/
def qualifierName (t : Token) : String :=
  String.ofList (Text.trimEnd (t.text.toList.reverse.dropWhile (· == ':')).reverse)

end Token

/-- What stands at a place of the input: a token, or its end. -/
inductive Lexeme
  | token (t : Token)
  | finish (offset : Nat)
  deriving DecidableEq, Repr

namespace Lexeme

/-- The first of the tokens, or the end of the input, which lies at `stop`. -/
def ofTokens (stop : Nat) : List Token → Lexeme
  | [] => finish stop
  | t :: _ => token t

def offset : Lexeme → Nat
  | token t => t.offset
  | finish offset => offset

/-- The name of the class; the end of the input has one of its own. -/
def kindName : Lexeme → String
  | token t => t.kind.name
  | finish _ => "EOF"

def text : Lexeme → String
  | token t => t.text
  | finish _ => ""

/-- The lexeme as messages show it. -/
def display : Lexeme → String
  | token t => t.kind.name ++ "(" ++ t.text ++ ")"
  | finish _ => "EOF"

end Lexeme

end IssueQuery
