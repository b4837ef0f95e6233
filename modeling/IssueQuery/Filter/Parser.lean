/-
Reading filters. Disjunction binds most loosely, then conjunction, whose sign may be left out, then
negation. A reader takes the tokens ahead and the byte at which the text ends, and says where it
stopped.
-/
import IssueQuery.Filter.Basic
import IssueQuery.Reading

namespace IssueQuery

/-- How tightly a token binds when it stands between two operands; zero ends an expression. A
token that begins an operand there stands for a conjunction whose sign is left out. -/
def Token.Kind.power : Token.Kind → Nat
  | .or => 1
  | .and | .qualifier | .symbol | .openBracket | .quote => 2
  | .not => 3
  | _ => 0

namespace Filter

/-! ## Numbers and dates -/

/-- The number that a symbol denotes. -/
def number? (t : Token) : Option Int :=
  if t.kind = .symbol then Text.int64? t.text else none

/-- The date that a date token denotes, if the calendar has it. -/
def dateOf (t : Token) : Except SyntaxError Date :=
  match Date.ofText? t.text with
  | some d => .ok d
  | none => .error (.misplaced (.noSuchDate (.token t)))

/-- A date where nothing else may stand. -/
def dateBound (name : String) (t : Token) : Except SyntaxError Date :=
  if t.kind = .date then dateOf t else .error (.misplaced (.badContent name (.token t)))

/-- A number where nothing else may stand. -/
def numberBound (name : String) (t : Token) : Except SyntaxError Int :=
  match number? t with
  | some n => .ok n
  | none => .error (.misplaced (.badContent name (.token t)))

/-! ## Content of qualifiers -/

/-- The words up to the closing quote; the opening one has been read. -/
def quotedWords (stop : Nat) : (ts : List Token) → Except SyntaxError (Reading (List String) ts)
  | [] => .error (.misplaced (.unclosedQuote (.finish stop)))
  | t :: ts =>
    match t.kind with
    | .quote => .ok (.head [] t ts)
    | .symbol | .date => do
      let words ← quotedWords stop ts
      return (words.map (t.text :: ·)).past t
    | _ => .error (.misplaced (.inQuotes (.token t)))

/-- A quoted phrase, its words a blank apart; the opening quote has been read. -/
def quoted (stop : Nat) (ts : List Token) : Except SyntaxError (Reading String ts) := do
  let words ← quotedWords stop ts
  return words.map (" ".intercalate ·)

/-- A sort key, reversed if a negation stands before it. -/
def sortKey (name : String) (stop : Nat) : (ts : List Token) → Except SyntaxError (Reading SortKey ts)
  | [] => .error (.misplaced (.noContent name (.finish stop)))
  | t :: ts =>
    match t.kind, ts with
    | .symbol, ts => .ok (.head ⟨t.text, false⟩ t ts)
    | .not, [] => .error (.misplaced (.noContent name (.finish stop)))
    | .not, k :: ts =>
      if k.kind = .symbol then .ok ((Reading.head (SortKey.mk k.text true) k ts).past t)
      else .error (.misplaced (.badContent name (.token k)))
    | _, _ => .error (.misplaced (.badContent name (.token t)))

/-- Sort keys with commas between them. -/
def sortKeys (name : String) (stop : Nat) (ts : List Token) :
    Except SyntaxError (Reading (List SortKey) ts) := do
  let first ← sortKey name stop ts
  match h : first.rest with
  | [] => return first.map ([·])
  | t :: rest =>
    if t.kind = .comma then
      have := first.length_tail_lt h
      let others ← sortKeys name stop rest
      return (others.map (first.value :: ·)).widen (Nat.le_of_lt this)
    else return first.map ([·])
termination_by ts.length

/-- What may follow a bound that has been read: nothing, or dots and either the other bound or a
star for none. -/
def afterBound {α : Type} (name : String) (stop : Nat) (bound : Token → Except SyntaxError α)
    (one : α → Qualifier.Content) (range : Range α → Qualifier.Content) (start : α) :
    (ts : List Token) → Except SyntaxError (Remainder Qualifier.Content ts)
  | [] => .ok (.none (one start) [])
  | d :: ts =>
    if d.kind = .dots then
      match ts with
      | [] => .error (.misplaced (.badContent name (.finish stop)))
      | t :: ts =>
        if t.kind = .star then .ok (((Reading.head (range (.above start false)) t ts).past d).remainder)
        else do
          let finish ← bound t
          return ((Reading.head (range (.between start finish)) t ts).past d).remainder
    else .ok (.none (one start) (d :: ts))

/-- The bound of a range that is open on one side; `sign` has been read. -/
def halfOpen (name : String) (stop : Nat) (sign : Token.Kind) :
    (ts : List Token) → Except SyntaxError (Reading Qualifier.Content ts)
  | [] => .error (.misplaced (.noBound name sign (.finish stop)))
  | t :: ts =>
    let strict := sign == .below || sign == .above
    let upper := sign == .below || sign == .atMost
    if t.kind = .date then do
      let d ← dateOf t
      return .head (.dates (if upper then .below d strict else .above d strict)) t ts
    else do
      let n ← numberBound name t
      return .head (.numbers (if upper then .below n strict else .above n strict)) t ts

/-- The content of the qualifier called `name`. -/
def content (name : String) (stop : Nat) :
    (ts : List Token) → Except SyntaxError (Reading Qualifier.Content ts)
  | [] => .error (.misplaced (.noContent name (.finish stop)))
  | t :: ts =>
    if Qualifier.Kind.ofName name = .sort then do
      let keys ← sortKeys name stop (t :: ts)
      return keys.map .sortKeys
    else if t.kind.isRangeOperator then do
      let range ← halfOpen name stop t.kind ts
      return range.past t
    else
      match t.kind with
      | .date => do
        let start ← dateOf t
        let all ← afterBound name stop (dateBound name) .date .dates start ts
        return all.past t
      | .symbol =>
        match number? t with
        | some start => do
          let all ← afterBound name stop (numberBound name) .number .numbers start ts
          return all.past t
        | none => .ok (.head (.text t.text) t ts)
      | .quote => do
        let phrase ← quoted stop ts
        return (phrase.map .text).past t
      | _ => .error (.misplaced (.badContent name (.token t)))

/-- Further contents of the same qualifier, each after a semicolon; any of them will do. -/
def alternatives (name : String) (stop : Nat) (left : Filter) (ts : List Token) :
    Except SyntaxError (Remainder Filter ts) :=
  match ts with
  | [] => .ok (.none left [])
  | t :: ts =>
    if t.kind = .semicolon then do
      let next ← content name stop ts
      have := next.shorter
      let all ← alternatives name stop (or left (leaf (.named name next.value))) next.rest
      return ((next.andThen all).past t).remainder
    else .ok (.none left (t :: ts))
termination_by ts.length

/-- A qualifier whose name has been read, with its alternatives. -/
def qualified (stop : Nat) (t : Token) (ts : List Token) : Except SyntaxError (Reading Filter ts) := do
  let name := Text.lower t.qualifierName
  let first ← content name stop ts
  let all ← alternatives name stop (leaf (.named name first.value)) first.rest
  return first.andThen all

/-! ## Expressions -/

/-- The bracket that closes an expression. -/
def closed {whole : List Token} (stop : Nat) (inner : Reading Filter whole) :
    Except SyntaxError (Reading Filter whole) :=
  match h : inner.rest with
  | [] => .error (.misplaced (.unclosedBracket (.finish stop)))
  | t :: rest =>
    if t.kind = .closeBracket then .ok ⟨inner.value, rest, inner.length_tail_lt h⟩
    else .error (.misplaced (.unclosedBracket (.token t)))

mutual

/-- An expression whose connectives bind more tightly than `level`. -/
def expression (stop level : Nat) (ts : List Token) : Except SyntaxError (Reading Filter ts) := do
  let first ← operand stop ts
  have := first.shorter
  let whole ← chain stop level first.value first.rest
  return first.andThen whole
termination_by 3 * ts.length + 1

/-- What a connective joins: a term, a negated operand, or an expression in brackets. -/
def operand (stop : Nat) (ts : List Token) : Except SyntaxError (Reading Filter ts) :=
  match ts with
  | [] => .error (.endedEarly stop)
  | t :: ts =>
    match t.kind with
    | .openBracket => do
      let inner ← expression stop 0 ts
      let bracketed ← closed stop inner
      return bracketed.past t
    | .not => do
      let inner ← expression stop Token.Kind.not.power ts
      return (inner.map not).past t
    | .qualifier => do
      let q ← qualified stop t ts
      return q.past t
    | .quote => do
      let phrase ← quoted stop ts
      return (phrase.map fun s => leaf (.keyword s)).past t
    | .symbol => .ok (.head (leaf (.keyword t.text)) t ts)
    | _ => .error (.misplaced (.notOperand (.token t)))
termination_by 3 * ts.length

/-- The connectives that bind more tightly than `level`, each with its right operand, from `left`
on. -/
def chain (stop level : Nat) (left : Filter) (ts : List Token) :
    Except SyntaxError (Remainder Filter ts) :=
  match ts with
  | [] => .ok (.none left [])
  | t :: ts =>
    if level < t.kind.power then
      match t.kind with
      | .and => do
        let right ← expression stop Token.Kind.and.power ts
        have := right.shorter
        let whole ← chain stop level (and left right.value) right.rest
        return ((right.andThen whole).past t).remainder
      | .or => do
        let right ← expression stop Token.Kind.or.power ts
        have := right.shorter
        let whole ← chain stop level (or left right.value) right.rest
        return ((right.andThen whole).past t).remainder
      | _ => do
        let right ← expression stop Token.Kind.and.power (t :: ts)
        have : right.rest.length ≤ ts.length := Nat.le_of_lt_succ right.shorter
        let whole ← chain stop level (and left right.value) right.rest
        return (right.andThen whole).remainder
    else .ok (.none left (t :: ts))
termination_by 3 * ts.length + 2

end

/-! ## Texts -/

/-- Reads a filter. A blank text is the empty filter. -/
def parse (s : String) : Except SyntaxError Filter :=
  if (Text.trim s.toList).isEmpty then .ok empty
  else do
    let lexed ← Token.lex s
    let whole ← expression lexed.stop 0 lexed.tokens
    match whole.rest with
    | [] => return whole.value
    | t :: _ => throw (.misplaced (.afterFilter (.token t)))

/-- What a check of a text that may be unfinished finds. -/
inductive Verdict
  | valid | incomplete | invalid
  deriving DecidableEq, Repr

/-- Whether the text is a filter, or could become one if more were written after it. -/
def check (s : String) : Verdict :=
  match parse s with
  | .ok _ => .valid
  | .error e => if e.isUnfinished (Token.stopOf s) then .incomplete else .invalid

end Filter

end IssueQuery
