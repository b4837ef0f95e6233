/-
Writing TOML. A string is written in the first of these forms that can hold it as it is: basic,
literal, basic on several lines, literal on several lines; with escapes only if none can.
-/
import IssueQuery.Text.Search
import IssueQuery.Toml.Strings

namespace IssueQuery.Toml

/-! ## What a string holds -/

/-- A control character that every form must escape: neither tab nor line feed. -/
def needsEscape (c : Char) : Bool := isControl c && c != '\n'

/-- Whether so many of a quote stand next to each other. -/
def hasRun (quote : Char) (count : Nat) (cs : List Char) : Bool :=
  Text.holds (List.replicate count quote) cs

def isPlainBasic (cs : List Char) : Bool := !cs.any fun c => isControl c || c == '\\' || c == '"'

def isPlainLiteral (cs : List Char) : Bool := !cs.any fun c => isControl c || c == '\''

def isPlainLongBasic (cs : List Char) : Bool :=
  !(cs.any fun c => needsEscape c || c == '\\') && !hasRun '"' 3 cs

def isPlainLongLiteral (cs : List Char) : Bool := !cs.any needsEscape && !hasRun '\'' 3 cs

/-! ## Escapes -/

/-- A character in a basic string. -/
def escape (c : Char) : String :=
  match c with
  | '\x08' => "\\b"
  | '\t' => "\\t"
  | '\n' => "\\n"
  | '\x0c' => "\\f"
  | '\r' => "\\r"
  | '"' => "\\\""
  | '\\' => "\\\\"
  | c =>
    if isControl c then
      "\\u" ++ Text.padLeft 4 '0' (String.ofList ((Nat.toDigits 16 c.toNat).map Char.toUpper))
    else c.toString

/-- The characters of a basic string on several lines: line feeds stand for themselves, and so do
quotes, `run` of which stand before, unless three would come together. -/
def escapeLong (run : Nat) : List Char → String
  | [] => ""
  | '\n' :: cs => "\n" ++ escapeLong 0 cs
  | '"' :: cs => if run < 2 then "\"" ++ escapeLong (run + 1) cs else "\\\"" ++ escapeLong 0 cs
  | c :: cs => escape c ++ escapeLong 0 cs

/-! ## Strings -/

/-- A string of several lines begins on a line of its own if it has more than one. -/
def opening (delimiter : String) (cs : List Char) : String :=
  if cs.contains '\n' then delimiter ++ "\n" else delimiter

def basic (cs : List Char) : String := "\"" ++ String.join (cs.map escape) ++ "\""

def literal (s : String) : String := "'" ++ s ++ "'"

def longBasic (cs : List Char) : String := opening "\"\"\"" cs ++ escapeLong 0 cs ++ "\"\"\""

def longLiteral (s : String) : String := opening "\'\'\'" s.toList ++ s ++ "\'\'\'"

/-- A string as a value. -/
def quote (s : String) : String :=
  let cs := s.toList
  if isPlainBasic cs then basic cs
  else if isPlainLiteral cs then literal s
  else if isPlainLongBasic cs then longBasic cs
  else if isPlainLongLiteral cs then longLiteral s
  else if cs.contains '\n' then longBasic cs
  else basic cs

/-- A string as a key: bare if it can be, and on one line in any case. -/
def quoteKey (s : String) : String :=
  let cs := s.toList
  if !cs.isEmpty && cs.all (fun c => c.isAlphanum || c == '_' || c == '-') then s
  else if isPlainBasic cs then basic cs
  else if isPlainLiteral cs then literal s
  else basic cs

/-- A line with a key and a string. -/
def pairLine (key value : String) : String := quoteKey key ++ " = " ++ quote value ++ "\n"

end IssueQuery.Toml
