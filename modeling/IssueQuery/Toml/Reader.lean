/-
Reading TOML documents: lines with headers of tables and with pairs of a key and a value, where
arrays and strings may run over several lines.
-/
import IssueQuery.Reading
import IssueQuery.Toml.Scalar
import IssueQuery.Toml.Strings

namespace IssueQuery.Toml

/-- The value together with what was left, if that is less than there was. -/
def shortened? {α : Type} (input : List Char) : α × List Char → Option (Reading α input)
  | (value, rest) => if h : rest.length < input.length then some ⟨value, rest, h⟩ else none

/-! ## Between values -/

/-- The characters without blanks in front. -/
def skipBlanks (cs : List Char) : List Char := cs.dropWhile fun c => c = ' ' || c = '\t'

/-- What stands after a comment, from the end of its line on. -/
def skipComment (cs : List Char) : Option (List Char) :=
  match cs with
  | '#' :: _ =>
    let line := cs.takeWhile fun c => c != '\n' && c != '\r'
    if line.any isControl then none else some (cs.drop line.length)
  | _ => some cs

/-- What stands after the end of a line. -/
def lineBreak? : List Char → Option (List Char)
  | '\n' :: cs | '\r' :: '\n' :: cs => some cs
  | _ => none

/-- What stands after blanks, comments and line breaks. -/
def skipLines (cs : List Char) : Option (List Char) := do
  let rest ← skipComment (skipBlanks cs)
  match lineBreak? rest with
  | none => return rest
  | some next => if next.length < cs.length then skipLines next else none
termination_by cs.length

/-- What stands after the rest of a line that may hold only a comment. -/
def endLine (cs : List Char) : Option (List Char) := do
  let rest ← skipComment (skipBlanks cs)
  if rest.isEmpty then some [] else lineBreak? rest

/-! ## Keys -/

def isBareKey (c : Char) : Bool := c.isAlphanum || c == '_' || c == '-'

/-- A part of a key, bare or quoted. -/
def keyPart? (cs : List Char) : Option (String × List Char) :=
  let bare := cs.takeWhile isBareKey
  if bare.isEmpty then shortString? cs else some (String.ofList bare, cs.drop bare.length)

/-- The parts of a dotted key in front of the last, at most `room` of them, the last, and what
stands after it and the blanks around it. -/
def keyWithin? (room : Nat) (cs : List Char) : Option ((List String × String) × List Char) := do
  let (part, rest) ← keyPart? (skipBlanks cs)
  match room, skipBlanks rest with
  | 0, '.' :: _ => none
  | room + 1, '.' :: next =>
    let ((path, last), rest) ← keyWithin? room next
    return ((part :: path, last), rest)
  | _, rest => return (([], part), rest)

/-- How deep arrays and inline tables may be nested, and how many parts a key may have. -/
def depthLimit : Nat := 80

/-- A key with its parts as `keyWithin?` gives them. -/
def key? (cs : List Char) : Option ((List String × String) × List Char) :=
  keyWithin? (depthLimit - 1) cs

/-! ## Values -/

def isScalarChar (c : Char) : Bool := c.isAlphanum || "_+-.:".toList.contains c

/-- A scalar that is no string. A blank may part a date from a time. -/
def scalar? (cs : List Char) : Option (Toml × List Char) :=
  let front := cs.takeWhile isScalarChar
  let longer :=
    match cs.drop front.length with
    | ' ' :: more => front ++ ' ' :: more.takeWhile isScalarChar
    | _ => front
  match date? front, time? longer with
  | some _, some t => some (time t, cs.drop longer.length)
  | _, _ => (ofScalar? front).map (·, cs.drop front.length)

mutual

/-- A value at the front of a text. Arrays and inline tables are nested at most `room` deep in it. -/
def value? (room : Nat) (cs : List Char) : Option (Reading Toml cs) :=
  match room, cs with
  | room + 1, '[' :: cs => do return ((← items? room cs).map array).past _
  | room + 1, '{' :: cs => do return ((← pairs? room [] cs).map (table .inline)).past _
  | _, cs =>
    match string? cs with
    | some (s, rest) => shortened? cs (string s, rest)
    | none => (scalar? cs).bind (shortened? cs)
termination_by 2 * cs.length

/-- The items of an array up to the bracket that closes it; the last may have a comma after it. -/
def items? (room : Nat) (cs : List Char) : Option (Reading (List Toml) cs) := do
  let start ← skipLines cs
  match start with
  | ']' :: rest => shortened? cs ([], rest)
  | start =>
    if start.length ≤ cs.length then
      let first ← value? room start
      match ← skipLines first.rest with
      | ']' :: rest => shortened? cs ([first.value], rest)
      | ',' :: rest =>
        if h' : rest.length < cs.length then
          let others ← items? room rest
          return (others.map (first.value :: ·)).widen (Nat.le_of_lt h')
        else none
      | _ => none
    else none
termination_by 2 * cs.length + 1

/-- The pairs of an inline table after those in `entries`, up to the brace that closes it; the last
may have a comma after it. -/
def pairs? (room : Nat) (entries : Entries) (cs : List Char) : Option (Reading Entries cs) := do
  let start ← skipLines cs
  match start with
  | '}' :: rest => shortened? cs (entries, rest)
  | start => do
    let ((path, key), rest) ← key? start
    match rest with
    | '=' :: rest =>
      if (skipBlanks rest).length < cs.length then
        let v ← value? room (skipBlanks rest)
        let entries ← assign path key v.value entries
        match ← skipLines v.rest with
        | '}' :: rest => shortened? cs (entries, rest)
        | ',' :: rest =>
          if h' : rest.length < cs.length then
            let all ← pairs? room entries rest
            return all.widen (Nat.le_of_lt h')
          else none
        | _ => none
      else none
    | _ => none
termination_by 2 * cs.length + 1

end

/-! ## Documents -/

/-- A header or a pair, and what stands after its line. -/
def statement? (cs : List Char) : Option (Statement × List Char) :=
  match cs with
  | '[' :: '[' :: cs => do
    let ((path, key), rest) ← key? cs
    match rest with
    | ']' :: ']' :: rest => return (.row path key, ← endLine rest)
    | _ => none
  | '[' :: cs => do
    let ((path, key), rest) ← key? cs
    match rest with
    | ']' :: rest => return (.header path key, ← endLine rest)
    | _ => none
  | cs => do
    let ((path, key), rest) ← key? cs
    match rest with
    | '=' :: rest => do
      let v ← value? depthLimit (skipBlanks rest)
      return (.pair path key v.value, ← endLine v.rest)
    | _ => none

/-- The statements of a document. -/
def statements? (cs : List Char) : Option (List Statement) := do
  match ← skipLines cs with
  | [] => return []
  | start =>
    let (s, rest) ← statement? start
    if rest.length < cs.length then return s :: (← statements? rest) else none
termination_by cs.length

/-- The entries of a document; a byte order mark may stand before them. -/
def parse? (s : String) : Option Entries :=
  let cs := match s.toList with
    | '\uFEFF' :: cs => cs
    | cs => cs
  (statements? cs).bind ofStatements?

end IssueQuery.Toml
