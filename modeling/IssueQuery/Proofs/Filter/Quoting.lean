/-
Words with quotes around them and without. A word between quotes is searched for as it stands; without
them it may be a number, and then the usual notation of the number is searched for. So the quotes make a
difference to numbers with leading zeros, and to no other word.
-/
import IssueQuery.Proofs.Filter.Applied
import IssueQuery.Proofs.Filter.Juxtaposition

namespace IssueQuery

open Token (Lexes Shape)

/-! ## Texts made of digits -/

theorem Text.lower_of_digits {s : String} (h : ∀ c ∈ s.toList, c.isDigit = true) : lower s = s := by
  have hascii : IsAscii s := fun c hc => (isAsciiWord_lt (by simp [isAsciiWord, isAlphanum_of_isDigit (h c hc)])).2
  have hlower : ∀ c ∈ s.toList, c.toLower = c := by
    intro c hc
    refine Char.toLower_eq_of_not_isUpper fun hupper => ?_
    have hdigit := isDigit_eq_false_of_isAlpha (c := c) (by simp [Char.isAlpha, hupper])
    rw [h c hc] at hdigit
    cases hdigit
  rw [← String.toList_inj, toList_lower hascii, List.map_congr_left hlower, List.map_id']

theorem GroupedName.ofText?_of_digits {s : String} (h : ∀ c ∈ s.toList, c.isDigit = true) : ofText? s = none := by
  have hdrop : s.toList.dropWhile (!isDelimiter ·) = [] := by
    refine List.dropWhile_eq_nil_iff.2 fun c hc => ?_
    have hdigit := h c hc
    rw [Bool.not_eq_true', isDelimiter, Bool.or_eq_false_iff, beq_eq_false_iff_ne, beq_eq_false_iff_ne]
    constructor <;> rintro rfl <;> cases hdigit
  simp [ofText?, hdrop]

/-! ## Searches for a text -/

/-- An issue in which every text is the same. -/
def Issue.ofText (s : String) : Issue :=
  let made : Instant := ⟨⟨2024, 1, 1, by decide⟩, 0, 0, by decide⟩
  ⟨1, s, s, s, made, made, .opened, .issue, some ⟨s, none, none⟩, some ⟨1, s, none, true⟩, [⟨s⟩], none, 0⟩

namespace Qualifier

/-- The kinds that look for a text in an issue. -/
def Kind.searchesText : Kind → Bool
  | keyword | title | body | milestone | label | author | assignee | involves => true
  | _ => false

theorem Kind.isMeta_of_searchesText {k : Kind} (h : k.searchesText = true) : k.isMeta = false := by
  cases k <;> first | rfl | cases h

theorem Kind.ne_sort_of_searchesText {k : Kind} (h : k.searchesText = true) : k ≠ .sort := by
  rintro rfl
  cases h

/-- What a word without quotes is read as. -/
def Content.ofWord (w : String) : Content := ((Text.int64? w).map number).getD (text w)

theorem Content.ofWord_eq_number {w : String} {n : Int} (h : Text.int64? w = some n) : ofWord w = number n := by
  rw [ofWord, h]
  rfl

theorem Content.ofWord_eq_text {w : String} (h : Text.int64? w = none) : ofWord w = text w := by
  rw [ofWord, h]
  rfl

variable {name : String} {c d : Content}

/-- Such a search needs nothing of its content but the text. -/
theorem isSatisfied_of_asText?_eq (hk : (Kind.ofName name).searchesText = true) (h : c.asText? = d.asText?)
    (s : Setting) (i : Issue) : (named name c).isSatisfied s i = (named name d).isSatisfied s i := by
  have hneedle : c.needle? = d.needle? := by rw [Content.needle?, h, Content.needle?]
  unfold isSatisfied
  simp only [kind, content]
  cases hkind : Kind.ofName name <;> simp only [hkind, Kind.searchesText, Bool.false_eq_true] at hk <;>
    simp only [Content.occursInScope, Content.occursIn, Content.fitsLabel, Content.isAuthorOf, Content.isAssigneeOf,
      hneedle]

/-- Digits are found exactly where they occur, whatever kind of search it is. -/
theorem isSatisfied_ofText {query s : String} (hk : (Kind.ofName name).searchesText = true)
    (hc : c.asText? = some query) (hquery : ∀ c ∈ query.toList, c.isDigit = true)
    (hs : ∀ c ∈ s.toList, c.isDigit = true) (now : Instant) :
    (named name c).isSatisfied ⟨⟨[.ofText s], [], [], []⟩, .whole, now⟩ (.ofText s) = Text.occurs query s := by
  have hneedle : c.needle? = some query := by rw [Content.needle?_eq hc, Text.lower_of_digits hquery]
  have hfolded : Text.occursFolded query s = Text.occurs query s := by
    rw [Text.occursFolded, Text.lower_of_digits hs]
  have hname : Label.name ⟨s⟩ = s := by simp [Label.name, Label.grouped?, GroupedName.ofText?_of_digits hs]
  unfold isSatisfied
  simp only [kind, content]
  cases hkind : Kind.ofName name <;> simp only [hkind, Kind.searchesText, Bool.false_eq_true] at hk <;>
    simp [Content.occursInScope, Content.occursIn, Content.fitsLabel, Content.isAuthorOf, Content.isAssigneeOf,
      Scope.whole, Issue.ofText, User.goesBy, Model.user?, GroupedName.ofText?_of_digits hquery, hneedle, hfolded, hname]

end Qualifier

/-! ## Words -/

namespace Filter

open Qualifier (Content Kind IsName)

/-- Both filters are satisfied by the same issues in every model. -/
def SameIssues (f g : Filter) : Prop :=
  ∀ (m : Model) (now : Instant), ∀ i ∈ m.issues, f.accepts m now i = g.accepts m now i

theorem sameIssues_comm {f g : Filter} : SameIssues f g ↔ SameIssues g f :=
  ⟨fun h m now i hi => (h m now i hi).symm, fun h m now i hi => (h m now i hi).symm⟩

theorem accepts_leaf {q : Qualifier} (h : q.isMeta = false) (m : Model) (now : Instant) (i : Issue) :
    (leaf q).accepts m now i = .ok (q.isSatisfied ⟨m, .whole, now⟩ i) := by
  have hfind : (leaf q).find Qualifier.isMeta = [] := by simp [find, qualifiers, h]
  have hplain : (leaf q).withoutMeta = leaf q := by simp [withoutMeta, restrict, h]
  rw [accepts, Scope.ofFilter?, hfind, hplain]
  rfl

section Word

variable {name w : String}

/-- A search for a word as it was read comes to a search for its text exactly if the word is no number
with a leading zero. -/
theorem sameIssues_ofWord_iff (hk : (Kind.ofName name).searchesText = true)
    (hw : ∀ c ∈ w.toList.head?, c ≠ '-' ∧ c ≠ '+') :
    SameIssues (leaf (.named name (.ofWord w))) (leaf (.named name (.text w))) ↔ ¬ Text.IsPadded w := by
  have haccepts (c : Content) := accepts_leaf (q := .named name c) (Kind.isMeta_of_searchesText hk)
  constructor
  · intro h hpadded
    obtain ⟨n, hn⟩ := Option.isSome_iff_exists.1 hpadded.number
    obtain ⟨hdigits, hdigits', hlength⟩ := hpadded.digits hn
    have hread : (Content.ofWord w).asText? = some (toString n) := by rw [Content.ofWord_eq_number hn, Content.asText?]
    -- an issue that shows the number is found by the number, but too short for the word
    have hfound := h ⟨[.ofText (toString n)], [], [], []⟩ (Issue.ofText "").createdAt _ (List.mem_singleton_self _)
    rw [haccepts, haccepts, Qualifier.isSatisfied_ofText hk hread hdigits' hdigits',
      Qualifier.isSatisfied_ofText hk rfl hdigits hdigits', Except.ok.injEq,
      Text.occurs_iff.2 List.infix_rfl, eq_comm, Text.occurs_iff] at hfound
    exact absurd hfound.length_le (by omega)
  · intro h m now i _
    have htext : (Content.ofWord w).asText? = (Content.text w).asText? := by
      cases hn : Text.int64? w with
      | none => rw [Content.ofWord_eq_text hn]
      | some n =>
        rw [Content.ofWord_eq_number hn, Content.asText?, Content.asText?, Text.toString_of_int64? hw hn h]
    rw [haccepts, haccepts, Qualifier.isSatisfied_of_asText?_eq hk htext]

theorem isContent_ofWord (h : Kind.ofName name ≠ .sort) : IsContent name [⟨.symbol, w⟩] (.ofWord w) := by
  cases hn : Text.int64? w with
  | none =>
    rw [Content.ofWord_eq_text hn]
    exact .symbol h rfl hn
  | some n =>
    rw [Content.ofWord_eq_number hn]
    exact .numbers h (.one hn)

theorem isQuoted_word : IsQuoted [⟨.quote, "\""⟩, ⟨.symbol, w⟩, ⟨.quote, "\""⟩] w := by
  have h : IsQuoted (⟨.quote, "\""⟩ :: ([⟨.symbol, w⟩] ++ [⟨.quote, "\""⟩]))
      (" ".intercalate (([⟨.symbol, w⟩] : List Shape).map Shape.text)) := .mk rfl (by simp) rfl
  simpa using h

theorem parse_named {text : String} {ss : List Shape} {c : Content} (hname : IsName name) (hl : Lexes text.toList ss)
    (hc : IsContent name ss c) : parse (name ++ ":" ++ text) = .ok (leaf (.named name c)) := by
  have hlexes : Lexes (name ++ ":" ++ text).toList (⟨.qualifier, name ++ ":"⟩ :: ss) := by
    have := Lexes.first (hname.firstMatch? text.toList) hl
    rwa [String.ofList_toList, ← String.toList_append] at this
  refine parse_of_isOperand hlexes fun rest hrest => ?_
  have hchoice := IsChoice.one hc
  rw [← hname.name] at hchoice
  have := Reads.qualifier (s := ⟨.qualifier, name ++ ":"⟩) rfl hchoice hrest
  rwa [hname.name] at this

end Word

/-- A word finds the same issues with quotes around it and without, after the name of any search for a text,
and a bare word the same as after `keyword:`, exactly if it is no number with a leading zero. -/
theorem sameIssues_quoted_iff {name w word : String} {kind : Kind} {l : Token.Lexed} (hname : (name, kind) ∈ Kind.names)
    (hkind : kind.searchesText = true) (hl : Token.lex w = .ok l) (hw : l.shapes = [⟨.symbol, word⟩]) :
    ∃ plain quoted bare keyword, parse (name ++ ":" ++ w) = .ok plain ∧
      parse (name ++ ":" ++ ("\"" ++ w ++ "\"")) = .ok quoted ∧ parse w = .ok bare ∧
      parse ("keyword:" ++ w) = .ok keyword ∧ (SameIssues plain quoted ↔ ¬ Text.IsPadded word) ∧
      (SameIssues bare keyword ↔ ¬ Text.IsPadded word) := by
  have hlexes : Lexes w.toList [⟨.symbol, word⟩] := hw ▸ Token.lexes_of_lex hl
  have hsign := not_sign_of_genuine (hlexes.genuine _ (List.mem_singleton_self _))
  have hread {name : String} {kind : Kind} (hname : (name, kind) ∈ Kind.names) (hkind : kind.searchesText = true) :
      IsName name ∧ Kind.ofName name ≠ .sort ∧
        (SameIssues (leaf (.named name (.ofWord word))) (leaf (.named name (.text word))) ↔ ¬ Text.IsPadded word) := by
    obtain ⟨hisName, rfl⟩ := Qualifier.isName_of_mem_names hname
    exact ⟨hisName, Kind.ne_sort_of_searchesText hkind, sameIssues_ofWord_iff hkind hsign⟩
  obtain ⟨hisName, hsort, hsame⟩ := hread hname hkind
  obtain ⟨hisName', hsort', hsame'⟩ := hread (show ("keyword", .keyword) ∈ Kind.names by decide) rfl
  have hkeyword : parse ("keyword:" ++ w) = .ok (leaf (.named "keyword" (.ofWord word))) := by
    have hcolon : "keyword:" = "keyword" ++ ":" := by decide
    rw [hcolon]
    exact parse_named hisName' hlexes (isContent_ofWord hsort')
  have hbare : parse w = .ok (leaf (.named "keyword" (.text word))) := by
    have hname : Qualifier.keyword word = .named "keyword" (.text word) := rfl
    rw [← hname]
    exact parse_of_isOperand hlexes fun _ _ => .symbol rfl
  exact ⟨_, _, _, _, parse_named hisName hlexes (isContent_ofWord hsort),
    parse_named hisName (lexes_quoted hlexes) (.quoted hsort isQuoted_word), hbare, hkeyword, hsame,
    sameIssues_comm.trans hsame'⟩

/-- A label with a number for its name, and the number alone. -/
theorem sameIssues_quoted_number : ∃ plain quoted bare keyword, parse "label:7" = .ok plain ∧
    parse "label:\"7\"" = .ok quoted ∧ parse "7" = .ok bare ∧ parse "keyword:7" = .ok keyword ∧
    SameIssues plain quoted ∧ SameIssues bare keyword := by
  have hl : Token.lex "7" = .ok ⟨[⟨.symbol, "7", 0⟩], 1⟩ := by decide +kernel
  have hplain : ¬ Text.IsPadded "7" := by
    rintro ⟨-, c, cs, h⟩
    cases h
  obtain ⟨plain, quoted, bare, keyword, h1, h2, h3, h4, hsame, hsame'⟩ :=
    sameIssues_quoted_iff (show ("label", .label) ∈ Kind.names by decide) rfl hl rfl
  exact ⟨plain, quoted, bare, keyword, h1, h2, h3, h4, hsame.2 hplain, hsame'.2 hplain⟩

/-- `007` is searched for as `7`, unless it is quoted or stands alone. -/
theorem exists_quoted_ne : Token.lex "007" = .ok ⟨[⟨.symbol, "007", 0⟩], 3⟩ ∧
    ∃ plain quoted bare keyword, parse "title:007" = .ok plain ∧ parse "title:\"007\"" = .ok quoted ∧
      parse "007" = .ok bare ∧ parse "keyword:007" = .ok keyword ∧
      ∃ (m : Model) (now : Instant), ∃ i ∈ m.issues, plain.accepts m now i = .ok true ∧
        quoted.accepts m now i = .ok false ∧ bare.accepts m now i = .ok false ∧
        keyword.accepts m now i = .ok true := by
  refine ⟨by decide +kernel, leaf (.named "title" (.number 7)), leaf (.named "title" (.text "007")),
    leaf (.keyword "007"), leaf (.named "keyword" (.number 7)), by decide +kernel, by decide +kernel,
    by decide +kernel, by decide +kernel, ⟨[.ofText "Agent 7"], [], [], []⟩, (Issue.ofText "").createdAt,
    .ofText "Agent 7", List.mem_singleton_self _, ?_⟩
  decide +kernel

end Filter

end IssueQuery
