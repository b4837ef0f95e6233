/-
The four kinds of TOML string: basic strings, whose backslashes are escapes, and literal strings,
each on one line or on several. A reader first finds the end of a string and then resolves its
escapes.
-/
import IssueQuery.Text.Numeral

namespace IssueQuery.Toml

/-- A control character other than the tab. -/
def isControl (c : Char) : Bool := (c.toNat < 0x20 && c != '\t') || c.toNat == 0x7F

/-! ## Ends of strings -/

/-- What stands up to the quote that ends a basic string, and what stands after it. -/
def basicBody : List Char → Option (List Char × List Char)
  | [] => none
  | '"' :: cs => some ([], cs)
  | '\\' :: c :: cs => (basicBody cs).map fun (body, rest) => ('\\' :: c :: body, rest)
  | c :: cs => if isControl c then none else (basicBody cs).map fun (body, rest) => (c :: body, rest)

/-- What stands up to the quote that ends a literal string, and what stands after it. -/
def literalBody (cs : List Char) : Option (List Char × List Char) :=
  let body := cs.takeWhile (· != '\'')
  match cs.drop body.length with
  | _ :: rest => if body.any isControl then none else some (body, rest)
  | [] => none

/-- What stands up to the three quotes that end a string of several lines, and what stands after
them. Up to two more quotes belong to the string. -/
def longBody (quote : Char) (escapes : Bool) : List Char → Option (List Char × List Char)
  | [] => none
  | c :: cs =>
    if [quote, quote, quote].isPrefixOf (c :: cs) then
      let run := ((c :: cs).take 5).takeWhile (· == quote)
      some (run.drop 3, (c :: cs).drop run.length)
    else if escapes && c == '\\' then
      match cs with
      | [] => none
      | d :: cs => (longBody quote escapes cs).map fun (body, rest) => (c :: d :: body, rest)
    else if c == '\r' && cs.head? != some '\n' then none
    else if isControl c && c != '\n' && c != '\r' then none
    else (longBody quote escapes cs).map fun (body, rest) => (c :: body, rest)

/-- The string less a line break at its very beginning. -/
def withoutFirstBreak : List Char → List Char
  | '\n' :: cs | '\r' :: '\n' :: cs => cs
  | cs => cs

/-! ## Escapes -/

/-- What a letter after a backslash stands for. -/
def escaped? : Char → Option Char
  | '"' => some '"'
  | '\\' => some '\\'
  | 'b' => some '\x08'
  | 'e' => some '\x1b'
  | 'f' => some '\x0c'
  | 'n' => some '\n'
  | 'r' => some '\r'
  | 't' => some '\t'
  | _ => none

/-- The character whose code point the hexadecimal digits give. -/
def hexChar? (cs : List Char) : Option Char :=
  (Text.hexNumber? cs).bind fun n => if n.isValidChar then some (Char.ofNat n) else none

/-- Blanks and line breaks, which a backslash at the end of a line takes away with it. -/
def isFiller (c : Char) : Bool := c = ' ' || c = '\t' || c = '\n' || c = '\r'

/-- Whether nothing but blanks comes before the end of the line. -/
def endsLine (cs : List Char) : Bool :=
  match cs.dropWhile fun c => c == ' ' || c == '\t' with
  | '\n' :: _ | '\r' :: '\n' :: _ => true
  | _ => false

/-- The string that a body stands for. In one of several lines (`long`) a backslash may end a line;
`skipping` tells that one has done so just before. -/
def unescape (long skipping : Bool) : List Char → Option (List Char)
  | [] => some []
  | '\\' :: 'x' :: a :: b :: cs => do return (← hexChar? [a, b]) :: (← unescape long false cs)
  | '\\' :: 'u' :: a :: b :: c :: d :: cs => do
    return (← hexChar? [a, b, c, d]) :: (← unescape long false cs)
  | '\\' :: 'U' :: a :: b :: c :: d :: e :: f :: g :: h :: cs => do
    return (← hexChar? [a, b, c, d, e, f, g, h]) :: (← unescape long false cs)
  | '\\' :: c :: cs =>
    match escaped? c with
    | some d => (unescape long false cs).map (d :: ·)
    | none => if long && endsLine (c :: cs) then unescape long true cs else none
  | c :: cs =>
    if skipping && isFiller c then unescape long true cs else (unescape long false cs).map (c :: ·)

/-! ## Strings -/

/-- A string on one line and what stands after it. -/
def shortString? : List Char → Option (String × List Char)
  | '"' :: cs => do
    let (body, rest) ← basicBody cs
    return (String.ofList (← unescape false false body), rest)
  | '\'' :: cs => do
    let (body, rest) ← literalBody cs
    return (String.ofList body, rest)
  | _ => none

/-- A string of any kind and what stands after it. -/
def string? : List Char → Option (String × List Char)
  | '"' :: '"' :: '"' :: cs => do
    let (body, rest) ← longBody '"' true (withoutFirstBreak cs)
    return (String.ofList (← unescape true false body), rest)
  | '\'' :: '\'' :: '\'' :: cs => do
    let (body, rest) ← longBody '\'' false (withoutFirstBreak cs)
    return (String.ofList body, rest)
  | cs => shortString? cs

end IssueQuery.Toml
