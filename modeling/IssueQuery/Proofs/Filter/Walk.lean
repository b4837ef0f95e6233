/-
The parser as one cursor that walks along the lexemes, looks at the one before it and takes it. Nothing
bounds its loops and calls beforehand: each routine is the least solution of its own equations, in which a
call that never comes back has no result at all.
-/
import IssueQuery.Proofs.Filter.Located
import IssueQuery.Project.Error

namespace IssueQuery

/-- The class of the lexeme, if it is a token. -/
def Lexeme.kind? : Lexeme → Option Token.Kind
  | token t => some t.kind
  | finish _ => none

namespace Token.Lexed

/-- The lexeme at a place. Behind the end of the text it is still the end. -/
def lexemeAt (l : Lexed) (i : Nat) : Lexeme :=
  have : min i (l.lexemes.length - 1) < l.lexemes.length := by simp [lexemes]
  l.lexemes[min i (l.lexemes.length - 1)]

theorem lexemeAt_eq (l : Lexed) (i : Nat) : l.lexemeAt i = .ofTokens l.stop (l.tokens.drop i) := by
  by_cases hi : i < l.tokens.length
  · rw [List.drop_eq_getElem_cons hi]
    simp [lexemeAt, lexemes, Lexeme.ofTokens, Nat.min_eq_left hi.le, hi]
  · rw [List.drop_eq_nil_of_le (Nat.not_lt.1 hi)]
    simp [lexemeAt, lexemes, Lexeme.ofTokens, Nat.min_eq_right (Nat.not_lt.1 hi)]

end Token.Lexed

namespace Filter

open Qualifier (Content)

/-- Where the parser stands, and the tokens that it has taken so far. -/
structure Cursor where
  position : Nat
  taken : List Token
  deriving DecidableEq, Repr

/-- Behind the tokens `us`, all of them taken. -/
def Cursor.after (c : Cursor) (us : List Token) : Cursor := ⟨c.position + us.length, c.taken ++ us⟩

/-- Before a text of which nothing has been taken. -/
def Cursor.start : Cursor := ⟨0, []⟩

/-- A routine of the parser. It moves the cursor, and gives a value or fails; it has no result at all where
it runs without end. -/
abbrev Routine (α : Type) := ExceptT FilterError (StateT Cursor Option) α

/-- The lexemes that the parser walks along. Its routines are called on them. -/
abbrev Walk := Token.Lexed

namespace Walk

/-- What comes of the routine when it is called at `c`, and where it leaves the cursor. -/
def resultAt {α : Type} (m : Routine α) (c : Cursor) : Option (Except FilterError α × Cursor) := m.run.run c

/-! ## Steps -/

/-- The lexeme before the cursor. -/
def peek (l : Walk) : Routine Lexeme := do return l.lexemeAt (← get).position

/-- Takes the lexeme before the cursor, which moves behind it. At the end of the text it does not move. -/
def advance (l : Walk) : Routine Lexeme := do
  let x ← l.peek
  match x with
  | .token t => modify (·.after [t])
  | .finish _ => pure ()
  return x

/-- Fails at a lexeme that may not stand where it does. -/
def misplaced {α : Type} (problem : Misplacement) : Routine α := throw (.unreadable (.misplaced problem))

/-- What a single lexeme denotes. -/
def denoted {α : Type} (x : Except SyntaxError α) : Routine α :=
  match x with
  | .ok a => return a
  | .error e => throw (.unreadable e)

/-- The leaf with this name and content, if they go together. -/
def named (name : String) (content : Content) : Routine Filter :=
  match Qualifier.make? name content with
  | .ok q => return leaf q
  | .error e => throw (.meaningless e)

/-! ## Content of qualifiers -/

/-- The words up to the closing quote, put behind those that were read before. -/
def quotedWords (l : Walk) (words : List String) : Routine (List String) := do
  match ← l.advance with
  | .finish stop => misplaced (.unclosedQuote (.finish stop))
  | .token t =>
    match t.kind with
    | .symbol | .date => l |>.quotedWords (words ++ [t.text])
    | .quote => return words
    | _ => misplaced (.inQuotes (.token t))
partial_fixpoint

/-- A quoted phrase; the opening quote has been taken. -/
def quoted (l : Walk) : Routine String := do
  let words ← l.quotedWords []
  return String.ofList (Text.trim (" ".intercalate words).toList)

/-- A sort key, the negation before it taken if there was one. -/
def plainKey (l : Walk) (name : String) (reversed : Bool) : Routine SortKey := do
  match ← l.advance with
  | .finish stop => misplaced (.noContent name (.finish stop))
  | .token t =>
    if t.kind = .symbol then return ⟨t.text, reversed⟩
    else misplaced (.badContent name (.token t))

/-- A sort key, reversed if a negation stands before it. -/
def sortKey (l : Walk) (name : String) : Routine SortKey := do
  if (← l.peek).kind? = some .not then
    let _ ← l.advance
    l.plainKey name true
  else l.plainKey name false

/-- Sort keys with commas between them, put behind those that were read before. -/
def sortKeys (l : Walk) (name : String) (keys : List SortKey) : Routine (List SortKey) := do
  let key ← l.sortKey name
  if (← l.peek).kind? = some .comma then
    let _ ← l.advance
    l |>.sortKeys name (keys ++ [key])
  else return keys ++ [key]
partial_fixpoint

/-- What follows a bound that has been taken: nothing, or dots and either the other bound or a star. -/
def afterBound {α : Type} (l : Walk) (name : String) (bound : Token → Except SyntaxError α) (one : α → Content)
    (range : Range α → Content) (start : α) : Routine Content := do
  if (← l.peek).kind? = some .dots then
    let _ ← l.advance
    match ← l.advance with
    | .finish stop => misplaced (.badContent name (.finish stop))
    | .token t =>
      if t.kind = .star then return range (.above start false)
      else return range (.between start (← denoted (bound t)))
  else return one start

/-- The bound of a range that is open on one side; `sign` has been taken. -/
def halfOpen (l : Walk) (name : String) (sign : Token.Kind) : Routine Content := do
  match ← l.advance with
  | .finish stop => misplaced (.noBound name sign (.finish stop))
  | .token t =>
    if t.kind = .date then return .dates (openRange sign (← denoted (dateOf t)))
    else return .numbers (openRange sign (← denoted (numberBound name t)))

/-- The content of the qualifier called `name`. -/
def content (l : Walk) (name : String) : Routine Content := do
  match ← l.peek with
  | .finish stop => misplaced (.noContent name (.finish stop))
  | .token t =>
    if Qualifier.Kind.ofName name = .sort then return .sortKeys (← l.sortKeys name [])
    else if t.kind.isRangeOperator then
      let _ ← l.advance
      l.halfOpen name t.kind
    else
      match t.kind with
      | .date =>
        let _ ← l.advance
        let start ← denoted (dateOf t)
        l.afterBound name (dateBound name) .date .dates start
      | .symbol =>
        let _ ← l.advance
        match number? t with
        | some start => l.afterBound name (numberBound name) .number .numbers start
        | none => return .text t.text
      | .quote =>
        let _ ← l.advance
        return .text (← l.quoted)
      | _ => misplaced (.badContent name (.token t))

/-- Further contents of the same qualifier, each after a semicolon. -/
def alternatives (l : Walk) (name : String) (left : Filter) : Routine Filter := do
  if (← l.peek).kind? = some .semicolon then
    let _ ← l.advance
    let next ← l.content name
    let right ← named name next
    l |>.alternatives name (or left right)
  else return left
partial_fixpoint

/-- A qualifier whose name has been taken, with its alternatives. -/
def qualified (l : Walk) (t : Token) : Routine Filter := do
  let name := Text.lower t.qualifierName
  let first ← l.content name
  let left ← named name first
  l.alternatives name left

/-! ## Expressions -/

mutual

/-- An expression whose connectives bind more tightly than `level`. -/
def expression (l : Walk) (level : Nat) : Routine Filter := do
  let x ← l.advance
  let left ← l |>.operand x
  l |>.chain level left
partial_fixpoint

/-- What a connective joins; its first lexeme has been taken. -/
def operand (l : Walk) (x : Lexeme) : Routine Filter :=
  match x with
  | .finish stop => throw (.unreadable (.endedEarly stop))
  | .token t =>
    match t.kind with
    | .openBracket => do
      let inner ← l |>.expression 0
      let closing ← l.advance
      if closing.kind? = some .closeBracket then return inner
      else misplaced (.unclosedBracket closing)
    | .not => do return not (← l |>.expression Token.Kind.not.power)
    | .qualifier => l.qualified t
    | .quote => do return leaf (.keyword (← l.quoted))
    | .symbol => return leaf (.keyword t.text)
    | _ => misplaced (.notOperand (.token t))
partial_fixpoint

/-- The connective before the cursor with its right operand. One that is left out is not taken. -/
def connect (l : Walk) (left : Filter) : Routine Filter := do
  match (← l.peek).kind? with
  | some .and =>
    let _ ← l.advance
    return and left (← l |>.expression Token.Kind.and.power)
  | some .or =>
    let _ ← l.advance
    return or left (← l |>.expression Token.Kind.or.power)
  | _ => return and left (← l |>.expression Token.Kind.and.power)
partial_fixpoint

/-- The connectives that bind more tightly than `level`, from `left` on. -/
def chain (l : Walk) (level : Nat) (left : Filter) : Routine Filter := do
  if level < (← l.peek).kind?.elim 0 Token.Kind.power then
    let whole ← l |>.connect left
    l |>.chain level whole
  else return left
partial_fixpoint

end

/-- An expression, behind which the text must end. -/
def whole (l : Walk) : Routine Filter := do
  let f ← l.expression 0
  match ← l.peek with
  | .finish _ => return f
  | .token t => misplaced (.afterFilter (.token t))

/-! ## Results of steps -/

section Rules

variable {l : Token.Lexed} {c : Cursor} {α β : Type}

theorem after_nil (c : Cursor) : c.after [] = c := by simp [Cursor.after]

theorem after_after (c : Cursor) (us vs : List Token) : (c.after us).after vs = c.after (us ++ vs) := by
  simp [Cursor.after, Nat.add_assoc]

theorem resultAt_bind (m : Routine α) (k : α → Routine β) : resultAt (m >>= k) c =
    (resultAt m c).bind fun (r, c') => match r with
      | .ok a => resultAt (k a) c'
      | .error e => some (.error e, c') := by
  change ((m.run.run c).bind fun (r, c') => (ExceptT.bindCont k r).run c') = _
  unfold resultAt
  congr 1
  funext ⟨r, c'⟩
  cases r <;> rfl

theorem resultAt_peek_bind (k : Lexeme → Routine β) :
    resultAt (peek l >>= k) c = resultAt (k (.ofTokens l.stop (l.tokens.drop c.position))) c := by
  rw [← Token.Lexed.lexemeAt_eq]
  rfl

theorem resultAt_advance_bind (k : Lexeme → Routine β) : resultAt (advance l >>= k) c =
    match l.tokens.drop c.position with
    | [] => resultAt (k (.finish l.stop)) c
    | t :: _ => resultAt (k (.token t)) (c.after [t]) := by
  have hat := l.lexemeAt_eq c.position
  unfold advance
  rw [bind_assoc, resultAt_peek_bind]
  cases l.tokens.drop c.position <;> rfl

end Rules

end Walk

end Filter

end IssueQuery
