/-
Cutting a text into tokens. The rules are tried in a fixed order wherever a token may begin, and
the first that matches cuts the token; blanks between tokens are passed over.
-/
import IssueQuery.SyntaxError
import IssueQuery.Text.Word

namespace IssueQuery.Token

/-! ## Rules

A rule tells how many characters a token of its kind takes at the front of a text, if one begins
there. -/

abbrev Rule := List Char → Option Nat

/-- The length of the first of the spellings that the text begins with. -/
def spelling (spellings : List String) : Rule := fun cs =>
  (spellings.find? fun s => s.toList.isPrefixOf cs).map String.length

/-- The number of digits at the front, none beyond `most` counted. -/
def digitCount (most : Nat) (cs : List Char) : Nat := ((cs.take most).takeWhile Char.isDigit).length

/-- A date is four digits, a hyphen, one or two digits, a hyphen, and one or two digits. -/
def dateLength : Rule := fun cs =>
  match digitCount 4 cs, cs.drop 4 with
  | 4, '-' :: month =>
    match digitCount 2 month with
    | 0 => none
    | m + 1 =>
      match month.drop (m + 1) with
      | '-' :: day => if digitCount 2 day = 0 then none else some (4 + 1 + (m + 1) + 1 + digitCount 2 day)
      | _ => none
  | _, _ => none

/-- The number of characters at the front that are letters, or single hyphens between letters. -/
def hyphenatedLength : List Char → Nat
  | c :: '-' :: d :: cs =>
    if c.isAlpha then if d.isAlpha then 2 + hyphenatedLength (d :: cs) else 1 else 0
  | c :: cs => if c.isAlpha then 1 + hyphenatedLength cs else 0
  | [] => 0

/-- A qualifier is a hyphenated word, blanks, and a colon. -/
def qualifierLength : Rule := fun cs =>
  match hyphenatedLength cs with
  | 0 => none
  | n + 1 =>
    let blanks := ((cs.drop (n + 1)).takeWhile Text.isBlank).length
    match cs.drop (n + 1 + blanks) with
    | ':' :: _ => some (n + 1 + blanks + 1)
    | _ => none

def startsSymbol (c : Char) : Bool := Text.isWord c || c == '#'

def continuesSymbol (c : Char) : Bool := Text.isWord c || "/.'+-".toList.contains c

/-- A symbol is a word character or number sign and what may continue it. -/
def symbolLength : Rule
  | c :: cs => if startsSymbol c then some (1 + (cs.takeWhile continuesSymbol).length) else none
  | [] => none

/-- The kinds of token in the order in which they are tried, each with its rule. -/
def rules : List (Kind × Rule) :=
  [(.and, spelling ["AND", "&&", "&"]), (.or, spelling ["OR", "||", "|"]),
    (.not, spelling ["NOT", "~", "!", "-"]), (.date, dateLength), (.qualifier, qualifierLength),
    (.semicolon, spelling [";"]), (.symbol, symbolLength), (.openBracket, spelling ["("]),
    (.closeBracket, spelling [")"]), (.quote, spelling ["\""]), (.comma, spelling [","]),
    (.percent, spelling ["%"]), (.dots, spelling [".."]), (.atMost, spelling ["<="]),
    (.atLeast, spelling [">="]), (.below, spelling ["<"]), (.above, spelling [">"]),
    (.star, spelling ["*"])]

/-- The kind and length of the token that begins the text, by the first rule that matches. -/
def firstMatch? (cs : List Char) : Option (Kind × Nat) :=
  rules.findSome? fun (kind, rule) => (rule cs).map (kind, ·)

/-- The spellings of the kinds that have no other rule. -/
def spellings : List (List String) :=
  [["AND", "&&", "&"], ["OR", "||", "|"], ["NOT", "~", "!", "-"], [";"], ["("], [")"], ["\""], [","], ["%"], [".."],
    ["<="], [">="], ["<"], [">"], ["*"]]

theorem mem_rules_cases {r : Kind × Rule} (h : r ∈ rules) : r = (.date, dateLength) ∨
    r = (.qualifier, qualifierLength) ∨ r = (.symbol, symbolLength) ∨ ∃ ss ∈ spellings, r.2 = spelling ss := by
  simp only [rules, List.mem_cons, List.not_mem_nil, or_false] at h
  rcases h with rfl | rfl | rfl | rfl | rfl | rfl | rfl | rfl | rfl | rfl | rfl | rfl | rfl | rfl | rfl | rfl | rfl |
    rfl
  case inr.inr.inr.inl => exact .inl rfl
  case inr.inr.inr.inr.inl => exact .inr (.inl rfl)
  case inr.inr.inr.inr.inr.inr.inl => exact .inr (.inr (.inl rfl))
  all_goals exact .inr (.inr (.inr ⟨_, by simp [spellings], rfl⟩))

/-! ## No rule matches the empty text -/

theorem pos_of_spelling {spellings : List String} (hs : "" ∉ spellings) {cs : List Char} {n : Nat}
    (h : spelling spellings cs = some n) : 0 < n := by
  obtain ⟨s, hfind, rfl⟩ := Option.map_eq_some_iff.1 h
  refine Nat.pos_of_ne_zero fun hzero => hs ?_
  rw [← String.length_eq_zero_iff.1 hzero]
  exact List.mem_of_find?_eq_some hfind

theorem pos_of_dateLength {cs : List Char} {n : Nat} (h : dateLength cs = some n) : 0 < n := by
  unfold dateLength at h
  split at h
  · split at h
    · cases h
    · split at h
      · split at h
        · cases h
        · cases h; omega
      · cases h
  · cases h

theorem pos_of_qualifierLength {cs : List Char} {n : Nat} (h : qualifierLength cs = some n) : 0 < n := by
  unfold qualifierLength at h
  split at h
  · cases h
  · dsimp only at h
    split at h
    · cases h; omega
    · cases h

theorem pos_of_symbolLength {cs : List Char} {n : Nat} (h : symbolLength cs = some n) : 0 < n := by
  unfold symbolLength at h
  split at h
  · split at h
    · cases h; omega
    · cases h
  · cases h

theorem pos_of_mem_rules {r : Kind × Rule} (hr : r ∈ rules) {cs : List Char} {n : Nat} (h : r.2 cs = some n) :
    0 < n := by
  have hnonempty : ∀ ss ∈ spellings, "" ∉ ss := by decide
  rcases mem_rules_cases hr with rfl | rfl | rfl | ⟨ss, hss, hrule⟩
  · exact pos_of_dateLength h
  · exact pos_of_qualifierLength h
  · exact pos_of_symbolLength h
  · rw [hrule] at h
    exact pos_of_spelling (hnonempty ss hss) h

theorem pos_of_firstMatch? {cs : List Char} {kind : Kind} {n : Nat} (h : firstMatch? cs = some (kind, n)) :
    0 < n := by
  obtain ⟨r, hr, h⟩ := List.exists_of_findSome?_eq_some h
  obtain ⟨m, hm, heq⟩ := Option.map_eq_some_iff.1 h
  cases heq
  exact pos_of_mem_rules hr hm

/-! ## Texts -/

theorem length_after_token_lt {cs rest : List Char} {c : Char} {n : Nat}
    (h : cs.dropWhile Text.isBlank = c :: rest) (hn : 0 < n) : rest.length + 1 - n < cs.length := by
  have := Text.length_dropWhile_le Text.isBlank cs
  rw [h, List.length_cons] at this
  omega

/-- The tokens of a text and the byte at which it ends; blanks at the end do not count. -/
structure Lexed where
  tokens : List Token
  stop : Nat
  deriving DecidableEq, Repr

/-- The tokens and the end of the text. -/
def Lexed.lexemes (l : Lexed) : List Lexeme := l.tokens.map .token ++ [.finish l.stop]

/-- The text that goes on behind the token. -/
def Lexed.behind (t : Token) (l : Lexed) : Lexed := ⟨t :: l.tokens, l.stop⟩

/-- The tokens of the characters, of which the first stands at byte `offset`, and the byte behind them. -/
def scan (offset : Nat) (cs : List Char) : Except SyntaxError Lexed :=
  let start := offset + Text.byteLength (cs.takeWhile Text.isBlank)
  match h : cs.dropWhile Text.isBlank with
  | [] => .ok ⟨[], start⟩
  | c :: rest =>
    match hm : firstMatch? (c :: rest) with
    | none => .error (.unrecognised c start)
    | some (kind, n) =>
      let text := (c :: rest).take n
      have := length_after_token_lt h (pos_of_firstMatch? hm)
      (scan (start + Text.byteLength text) ((c :: rest).drop n)).map
        (Lexed.behind ⟨kind, String.ofList text, start⟩)
termination_by cs.length

/-- The size in bytes of a text less the blanks at its end. -/
def stopOf (s : String) : Nat := Text.byteLength (Text.trimEnd s.toList)

/-- Cuts a text into tokens. -/
def lex (s : String) : Except SyntaxError Lexed := scan 0 (Text.trimEnd s.toList)

/-- Whether the whole text, blanks included, is one symbol. -/
def isSymbol (s : String) : Bool :=
  match lex s with
  | .ok ⟨[t], _⟩ => t.kind == .symbol && t.text == s
  | _ => false

end IssueQuery.Token
