/-
Where a text fails to be a filter. The fault lies at a character that begins no token, at one of the tokens,
or at the end of the text behind the last of them. There is no other fault, since a name and the content that
is read for it always go together, so that a check of the two makes no difference.
-/
import IssueQuery.Project.Error
import IssueQuery.Proofs.Filter.Check
import IssueQuery.Proofs.Filter.Parsed

namespace IssueQuery

open Token (Shape)
open Qualifier (Content Kind IsName)

/-! ## Names and contents -/

namespace Qualifier

/-- A name with the content that its kind takes makes a qualifier. -/
theorem make?_of_isName {name : String} {c : Content} (hname : IsName name)
    (h : c.isSortKeys = true ↔ Kind.ofName name = .sort) : make? name c = .ok (.named name c) := by
  have hagree : (decide (Kind.ofName name = .sort) == c.isSortKeys) = true := by
    rw [beq_iff_eq, Bool.eq_iff_iff, decide_eq_true_eq]
    exact h.symm
  simp only [make?, hname.plain, hagree, reduceIte]

theorem IsRead.make? {q : Qualifier} (h : q.IsRead) : make? q.name q.content = .ok q := by
  cases q with
  | empty => exact absurd rfl h.nonempty
  | named name c => exact make?_of_isName h.name h.sortKeys_iff

end Qualifier

theorem SyntaxError.offset_of_found? {e : SyntaxError} {found : Lexeme} (h : e.found? = some found) :
    e.offset = found.offset := by
  cases e with
  | unrecognised => cases h
  | endedEarly | misplaced =>
    cases h
    rfl

namespace Filter

variable {name : String} {stop : Nat} {ss : List Shape} {ts : List Token} {c : Content}

theorem IsContent.isSortKeys_iff (h : IsContent name ss c) : c.isSortKeys = true ↔ Kind.ofName name = .sort := by
  have hspan {α : Type} {value? : Shape → Option α} {one : α → Content} {range : Range α → Content}
      (hone : ∀ a, (one a).isSortKeys = false) (hrange : ∀ r, (range r).isSortKeys = false)
      (h : IsSpan value? one range ss c) : c.isSortKeys = false := by
    cases h with
    | one => exact hone _
    | between | onwards | above | atLeast | below | atMost => exact hrange _
  cases h with
  | sortKeys hs => exact iff_of_true rfl hs
  | dates hs hd => exact iff_of_false (by rw [hspan (fun _ => rfl) (fun _ => rfl) hd]; decide) hs
  | numbers hs hn => exact iff_of_false (by rw [hspan (fun _ => rfl) (fun _ => rfl) hn]; decide) hs
  | quoted hs | symbol hs => exact iff_of_false Bool.false_ne_true hs

/-- Whatever content is read for the name, before whatever end, the two make a qualifier. -/
def TakesContent (name : String) : Prop :=
  ∀ stop ts r, content name stop ts = .ok r → Qualifier.make? name r.value = .ok (.named name r.value)

theorem takesContent_of_isName (hname : IsName name) : TakesContent name := by
  intro stop ts r hr
  obtain ⟨us, -, hus⟩ := isContent_of_yields ⟨r, hr, rfl, rfl⟩
  exact Qualifier.make?_of_isName hname hus.isSortKeys_iff

/-- A name in a text takes every content that is read for it. -/
theorem takesContent_of_lex {s : String} {l : Token.Lexed} (hl : Token.lex s = .ok l) {t : Token} (ht : t ∈ l.tokens)
    (hk : t.kind = .qualifier) : TakesContent (Text.lower t.qualifierName) := by
  have hgenuine := (Token.lexes_of_lex hl).genuine (Token.shape t) (List.mem_map_of_mem ht)
  have hname : IsName (Token.shape t).name := Qualifier.isName_of_firstMatch? hk hgenuine
  exact takesContent_of_isName hname

/-! ## Qualifiers checked as they are read -/

/-- The leaf with the name and the content, if the two make a qualifier. -/
def leafChecked (name : String) (c : Content) : Except FilterError Filter :=
  ((Qualifier.make? name c).map leaf).mapError .meaningless

/-- Further contents of the same qualifier, each of them checked against the name. -/
def alternativesChecked (name : String) (stop : Nat) (left : Filter) (ts : List Token) :
    Except FilterError (Remainder Filter ts) :=
  match ts with
  | [] => .ok (.none left [])
  | t :: ts =>
    if t.kind = .semicolon then do
      let next ← (content name stop ts).mapError .unreadable
      let right ← leafChecked name next.value
      have := next.shorter
      let all ← alternativesChecked name stop (or left right) next.rest
      return ((next.andThen all).past t).remainder
    else .ok (.none left (t :: ts))
termination_by ts.length

/-- A qualifier whose name has been read, each of its contents checked against the name. -/
def qualifiedChecked (stop : Nat) (t : Token) (ts : List Token) : Except FilterError (Reading Filter ts) := do
  let name := Text.lower t.qualifierName
  let first ← (content name stop ts).mapError .unreadable
  let left ← leafChecked name first.value
  let all ← alternativesChecked name stop left first.rest
  return first.andThen all

theorem TakesContent.leafChecked (h : TakesContent name) {r : Reading Content ts} (hr : content name stop ts = .ok r) :
    leafChecked name r.value = .ok (leaf (.named name r.value)) := by
  rw [Filter.leafChecked, h stop ts r hr]
  rfl

theorem TakesContent.alternativesChecked_eq (h : TakesContent name) (left : Filter) (ts : List Token) :
    alternativesChecked name stop left ts = (alternatives name stop left ts).mapError .unreadable := by
  induction hn : ts.length using Nat.strong_induction_on generalizing left ts with
  | _ n ih =>
    cases ts with
    | nil => rw [alternativesChecked, alternatives]; rfl
    | cons t ts =>
      rw [alternativesChecked, alternatives]
      split
      · cases hr : content name stop ts with
        | error e => rfl
        | ok next =>
          have hlt := next.shorter
          have hrest := ih next.rest.length (by rw [← hn, List.length_cons]; omega)
            (or left (leaf (.named name next.value))) next.rest rfl
          simp only [bind, Except.bind, Except.mapError, h.leafChecked hr, hrest]
          cases alternatives name stop (or left (leaf (.named name next.value))) next.rest <;> rfl
      · rfl

/-- In a text, the check of every content against its name finds nothing, so it makes no difference. -/
theorem qualifiedChecked_eq {s : String} {l : Token.Lexed} (hl : Token.lex s = .ok l) {t : Token} (ht : t ∈ l.tokens)
    (hk : t.kind = .qualifier) (stop : Nat) (ts : List Token) :
    qualifiedChecked stop t ts = (qualified stop t ts).mapError .unreadable := by
  have h := takesContent_of_lex hl ht hk
  unfold qualifiedChecked qualified
  dsimp only
  cases hr : content (Text.lower t.qualifierName) stop ts with
  | error e => rfl
  | ok first =>
    simp only [bind, Except.bind, Except.mapError, h.leafChecked hr, h.alternativesChecked_eq]
    cases alternatives _ stop (leaf (.named _ first.value)) first.rest <;> rfl

/-! ## Places of faults -/

/-- The fault lies in the text: at a character that the lexer does not know, or at a token or the end. -/
structure LiesIn (s : String) (e : SyntaxError) : Prop where
  place : (∃ c o, e = .unrecognised c o ∧ Token.lex s = .error e) ∨
    ∃ l found, Token.lex s = .ok l ∧ found ∈ l.lexemes ∧ e.found? = some found ∧ e.offset = found.offset
  offset_le : e.offset ≤ Token.stopOf s
  offset_eq_iff : e.offset = Token.stopOf s ↔ e.found? = some (.finish (Token.stopOf s))

variable {s : String} {e : SyntaxError} {l : Token.Lexed}

theorem liesIn_of_lex (h : Token.lex s = .error e) : LiesIn s e := by
  obtain ⟨c, o, rest, ts, rfl, hc, -⟩ := Token.covers_of_scan_error h
  have hlt : o < Token.stopOf s := by simpa [Token.stopOf] using hc.lt
  exact ⟨.inl ⟨c, o, rfl, h⟩, hlt.le, iff_of_false hlt.ne fun hend => by cases hend⟩

theorem liesIn_of_token (hl : Token.lex s = .ok l) {t : Token} (ht : t ∈ l.tokens) (he : e.found? = some (.token t)) :
    LiesIn s e := by
  have hoffset := SyntaxError.offset_of_found? he
  have hlt : e.offset < Token.stopOf s := hoffset ▸ Token.offset_lt_of_lex hl t ht
  have hmem : Lexeme.token t ∈ l.lexemes := List.mem_append_left _ (List.mem_map_of_mem ht)
  refine ⟨.inr ⟨l, _, hl, hmem, he, hoffset⟩, hlt.le, iff_of_false hlt.ne fun hend => ?_⟩
  rw [he] at hend
  cases hend

theorem liesIn_of_finish (hl : Token.lex s = .ok l) (he : e.found? = some (.finish l.stop)) : LiesIn s e := by
  have hoffset := SyntaxError.offset_of_found? he
  have hstop := Token.stop_of_lex hl
  have hmem : Lexeme.finish l.stop ∈ l.lexemes := List.mem_append_right _ (List.mem_singleton_self _)
  have heq : e.offset = Token.stopOf s := hoffset.trans hstop
  exact ⟨.inr ⟨l, _, hl, hmem, he, hoffset⟩, heq.le, iff_of_true heq (hstop ▸ he)⟩

theorem liesIn_of_parse (h : parse s = .error e) : LiesIn s e := by
  obtain ⟨-, hlex | ⟨l, hl, hfails | ⟨f, t, rest, hrun, rfl⟩⟩⟩ := parse_eq_error_iff.1 h
  · exact liesIn_of_lex hlex
  · rcases faultIn_of_fails (.expression 0) l.tokens hfails with ⟨t, ht, he⟩ | ⟨he, -⟩
    · exact liesIn_of_token hl ht he
    · exact liesIn_of_finish hl he
  · have hsub := (isSuffix_of_runs (.expression 0) l.tokens hrun).subset
    exact liesIn_of_token hl (hsub (List.mem_cons_self ..)) rfl

/-- Reading ends in a filter whose qualifiers are rightly made, or in a fault that lies in the text. A name in
the text goes with every content that is read for it, so none is refused on the way. -/
theorem parse_located (s : String) :
    (match parse s with
      | .ok f => ∀ q ∈ f.qualifiers, q ≠ .empty → Qualifier.make? q.name q.content = .ok q
      | .error e => LiesIn s e) ∧
      ∀ l, Token.lex s = .ok l → ∀ t ∈ l.tokens, t.kind = .qualifier → TakesContent (Text.lower t.qualifierName) := by
  refine ⟨?_, fun l hl t ht hk => takesContent_of_lex hl ht hk⟩
  split
  case h_1 f hf =>
    rcases blank_or_isRead_of_parse hf with ⟨rfl, -⟩ | ⟨-, hread⟩
    · exact fun q hq hne => absurd (List.mem_singleton.1 hq) hne
    · exact fun q hq _ => (hread q hq).make?
  case h_2 e he => exact liesIn_of_parse he

/-- A text that is read, and names with their contents in another that is not. -/
theorem parse_located_sort :
    (∃ q, parse "sort: ~a, b" = .ok (leaf q) ∧ Qualifier.make? q.name q.content = .ok q) ∧
      (∃ e, parse "id:1 sort:(" = .error e ∧ LiesIn "id:1 sort:(" e) ∧ TakesContent "id" ∧ TakesContent "sort" := by
  have hread := (parse_located "sort: ~a, b").1
  have hparse : parse "sort: ~a, b" = .ok (leaf (.named "sort" (.sortKeys [⟨"a", true⟩, ⟨"b", false⟩]))) := by
    decide +kernel
  rw [hparse] at hread
  obtain ⟨hfails, htakes⟩ := parse_located "id:1 sort:("
  have herror : parse "id:1 sort:(" = .error (.misplaced (.badContent "sort" (.token ⟨.openBracket, "(", 10⟩))) := by
    decide +kernel
  rw [herror] at hfails
  have hlex : Token.lex "id:1 sort:(" = .ok ⟨[⟨.qualifier, "id:", 0⟩, ⟨.symbol, "1", 3⟩, ⟨.qualifier, "sort:", 5⟩,
      ⟨.openBracket, "(", 10⟩], 11⟩ := by
    decide +kernel
  refine ⟨⟨_, hparse, hread _ (List.mem_singleton_self _) nofun⟩, ⟨_, herror, hfails⟩, ?_, ?_⟩
  · exact htakes _ hlex ⟨.qualifier, "id:", 0⟩ (by decide) rfl
  · exact htakes _ hlex ⟨.qualifier, "sort:", 5⟩ (by decide) rfl

/-- The blanks at the end are not counted, and the first character takes two bytes. -/
example : parse "é (a  " = .error (.misplaced (.unclosedBracket (.finish 5))) := by decide +kernel

end Filter

end IssueQuery
