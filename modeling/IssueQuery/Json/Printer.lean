/-
JSON values as text, on one line or with each item on a line of its own.
-/
import IssueQuery.Json
import IssueQuery.Text.Numeral

namespace IssueQuery.Json

/-- A character in a string. Quotes, backslashes and control characters are escaped. -/
def escape (c : Char) : String :=
  match c with
  | '"' => "\\\""
  | '\\' => "\\\\"
  | '\x08' => "\\b"
  | '\x0c' => "\\f"
  | '\n' => "\\n"
  | '\r' => "\\r"
  | '\t' => "\\t"
  | c =>
    if c.toNat < 0x20 then "\\u" ++ Text.padLeft 4 '0' (String.ofList (Nat.toDigits 16 c.toNat))
    else c.toString

/-- A text between quotes. -/
def quote (s : String) : String := "\"" ++ String.join (s.toList.map escape) ++ "\""

/-- How the items of a collection are set. -/
structure Layout where
  /-- What stands before the items and between them, and what stands after them, at a depth. -/
  before : Nat → String
  after : Nat → String
  /-- What stands between a key and its value. -/
  colon : String

/-- Everything on one line, without blanks. -/
def Layout.compact : Layout := ⟨fun _ => "", fun _ => "", ":"⟩

/-- A line for each item, indented by two blanks for each level. -/
def Layout.pretty : Layout :=
  let line (depth : Nat) : String := "\n" ++ String.ofList (List.replicate (2 * depth) ' ')
  ⟨fun depth => line (depth + 1), line, ": "⟩

/-- The texts of the items between an opening and a closing sign. -/
def enclose (l : Layout) (depth : Nat) (opening closing : String) (items : List String) : String :=
  if items.isEmpty then opening ++ closing
  else
    opening ++ l.before depth ++ (("," ++ l.before depth).intercalate items) ++ l.after depth ++ closing

/-- The value laid out at a depth. -/
def render (l : Layout) (depth : Nat) : Json → String
  | null => "null"
  | bool b => if b then "true" else "false"
  | natural n => toString n
  | number numeral => numeral
  | string s => quote (s.getD "")
  | array items =>
    enclose l depth "[" "]" (items.attach.map fun ⟨v, _⟩ => render l (depth + 1) v)
  | object fields =>
    enclose l depth "\x7b" "\x7d"
      (fields.attach.map fun ⟨(key, v), _⟩ => quote (key.getD "") ++ l.colon ++ render l (depth + 1) v)
termination_by v => v
decreasing_by
  · simp_wf
    rename_i h
    have := List.sizeOf_lt_of_mem h
    omega
  · simp_wf
    rename_i h
    have := List.sizeOf_lt_of_mem h
    simp at this
    omega

/-- The value on one line. -/
def compact (v : Json) : String := render .compact 0 v

/-- The value on as many lines as it has items. -/
def pretty (v : Json) : String := render .pretty 0 v

end IssueQuery.Json
