/-
Reading JSON text. The text is cut into marks, scalars among them, and the marks are put together to
values; nothing but blanks may stand around a value.
-/
import IssueQuery.Json
import IssueQuery.Reading
import IssueQuery.Text.Numeral

namespace IssueQuery.Json

/-! ## Strings -/

/-- A piece of a string: a character, or a code unit of UTF-16 that an escape gives. -/
inductive Piece
  | char (c : Char)
  | unit (n : Nat)

/-- What a letter after a backslash stands for. -/
def escaped? : Char → Option Char
  | '"' => some '"'
  | '\\' => some '\\'
  | '/' => some '/'
  | 'b' => some '\x08'
  | 'f' => some '\x0c'
  | 'n' => some '\n'
  | 'r' => some '\r'
  | 't' => some '\t'
  | _ => none

/-- The pieces up to the closing quote; the opening one has been read. -/
def pieces : (cs : List Char) → Option (Reading (List Piece) cs)
  | [] => none
  | '"' :: cs => some (.head [] _ cs)
  | '\\' :: 'u' :: a :: b :: c :: d :: cs => do
    let n ← Text.hexNumber? [a, b, c, d]
    let r ← pieces cs
    return ((((((r.map (.unit n :: ·)).past d).past c).past b).past a).past 'u').past '\\'
  | '\\' :: e :: cs => do
    let c ← escaped? e
    let r ← pieces cs
    return ((r.map (.char c :: ·)).past e).past '\\'
  | c :: cs => do
    if c.toNat < 0x20 then none
    let r ← pieces cs
    return (r.map (.char c :: ·)).past c

def isHighSurrogate (n : Nat) : Bool := 0xD800 ≤ n && n < 0xDC00

def isLowSurrogate (n : Nat) : Bool := 0xDC00 ≤ n && n < 0xE000

/-- The characters that the pieces make up. Surrogates must come in pairs. -/
def joined : List Piece → Option (List Char)
  | [] => some []
  | .char c :: ps => (joined ps).map (c :: ·)
  | .unit n :: .unit m :: ps =>
    if isHighSurrogate n then
      if isLowSurrogate m then
        (joined ps).map (Char.ofNat (0x10000 + (n - 0xD800) * 0x400 + (m - 0xDC00)) :: ·)
      else none
    else if isLowSurrogate n then none
    else (joined (.unit m :: ps)).map (Char.ofNat n :: ·)
  | .unit n :: ps =>
    if isHighSurrogate n || isLowSurrogate n then none else (joined ps).map (Char.ofNat n :: ·)

/-! ## Numbers -/

/-- How many characters an exponent takes, none if there is no exponent; one without digits is
wrong. -/
def exponentLength? : List Char → Option Nat
  | e :: cs =>
    if e = 'e' || e = 'E' then
      let sign := match cs with
        | '+' :: _ | '-' :: _ => 1
        | _ => 0
      let run := ((cs.drop sign).takeWhile Char.isDigit).length
      if run = 0 then none else some (1 + sign + run)
    else some 0
  | [] => some 0

/-- How many characters a fraction takes, none if there is no fraction; one without digits is
wrong. -/
def fractionLength? : List Char → Option Nat
  | '.' :: cs =>
    let run := (cs.takeWhile Char.isDigit).length
    if run = 0 then none else some (1 + run)
  | _ => some 0

/-- The number at the front of a text and the count of its characters. A whole number has no
needless zero in front. -/
def number? (cs : List Char) : Option (Json × Nat) := do
  let sign := match cs with
    | '-' :: _ => 1
    | _ => 0
  let whole := (cs.drop sign).takeWhile Char.isDigit
  if whole.isEmpty || (whole.head? == some '0' && whole.length != 1) then none
  let fraction ← fractionLength? (cs.drop (sign + whole.length))
  let exponent ← exponentLength? (cs.drop (sign + whole.length + fraction))
  let length := sign + whole.length + fraction + exponent
  if length = whole.length then some (.natural (Nat.ofDigitChars 10 whole 0), length)
  else some (.number (String.ofList (cs.take length)), length)

/-! ## Marks -/

inductive Mark
  | openArray | closeArray | openObject | closeObject | comma | colon
  | scalar (v : Json)

def isSpace (c : Char) : Bool := c = ' ' || c = '\t' || c = '\n' || c = '\r'

/-- The sign or scalar that the characters begin with. -/
def mark : (cs : List Char) → Option (Reading Mark cs)
  | '[' :: cs => some (.head .openArray _ cs)
  | ']' :: cs => some (.head .closeArray _ cs)
  | '{' :: cs => some (.head .openObject _ cs)
  | '}' :: cs => some (.head .closeObject _ cs)
  | ',' :: cs => some (.head .comma _ cs)
  | ':' :: cs => some (.head .colon _ cs)
  | '"' :: cs => do
    let r ← pieces cs
    return (r.map fun ps => .scalar (.string ((joined ps).map String.ofList))).past '"'
  | 'n' :: 'u' :: 'l' :: 'l' :: cs => some ((((Reading.head (.scalar .null) 'l' cs).past 'l').past 'u').past 'n')
  | 't' :: 'r' :: 'u' :: 'e' :: cs =>
    some ((((Reading.head (.scalar (.bool true)) 'e' cs).past 'u').past 'r').past 't')
  | 'f' :: 'a' :: 'l' :: 's' :: 'e' :: cs =>
    some (((((Reading.head (.scalar (.bool false)) 'e' cs).past 's').past 'l').past 'a').past 'f')
  | c :: cs =>
    match number? (c :: cs) with
    | some (v, n + 1) => some ⟨.scalar v, cs.drop n, by rw [List.length_drop, List.length_cons]; omega⟩
    | _ => none
  | [] => none

/-- All marks of a text. -/
def marks (cs : List Char) : Option (List Mark) :=
  match h : cs.dropWhile isSpace with
  | [] => some []
  | c :: rest => do
    let r ← mark (c :: rest)
    have : r.rest.length < cs.length := by
      have := r.shorter
      have := (List.dropWhile_suffix isSpace (l := cs)).length_le
      rw [h] at this
      omega
    return r.value :: (← marks r.rest)
termination_by cs.length

/-! ## Values -/

mutual

def value : (ms : List Mark) → Option (Reading Json ms)
  | .scalar v :: ms => some (.head v _ ms)
  | .openArray :: .closeArray :: ms => some ((Reading.head (.array []) _ ms).past _)
  | .openArray :: ms => do return ((← items ms).map .array).past _
  | .openObject :: .closeObject :: ms => some ((Reading.head (.object []) _ ms).past _)
  | .openObject :: ms => do return ((← members ms).map .object).past _
  | _ => none
termination_by ms => 2 * ms.length

/-- The items of an array up to the bracket that closes it. -/
def items (ms : List Mark) : Option (Reading (List Json) ms) := do
  let first ← value ms
  match h : first.rest with
  | .closeArray :: rest => return ⟨[first.value], rest, first.length_tail_lt h⟩
  | .comma :: rest =>
    have := first.length_tail_lt h
    return ((← items rest).map (first.value :: ·)).widen (Nat.le_of_lt this)
  | _ => none
termination_by 2 * ms.length + 1

/-- The fields of an object up to the brace that closes it. -/
def members : (ms : List Mark) → Option (Reading (List (Option String × Json)) ms)
  | .scalar (.string key) :: .colon :: ms => do
    let first ← value ms
    match h : first.rest with
    | .closeObject :: rest =>
      return ((⟨[(key, first.value)], rest, first.length_tail_lt h⟩ : Reading _ ms).past _).past _
    | .comma :: rest =>
      have := first.length_tail_lt h
      return ((((← members rest).map ((key, first.value) :: ·)).widen (Nat.le_of_lt this)).past _).past _
    | _ => none
  | _ => none
termination_by ms => 2 * ms.length + 1

end

/-- The value that a text is. -/
def parse? (s : String) : Option Json := do
  let whole ← value (← marks s.toList)
  if whole.rest.isEmpty then some whole.value else none

end IssueQuery.Json
