/-
Texts and the tokens they consist of, as a relation that forgets where a token stands. The lexer
decides it. A text that breaks can be cut off: the tokens of the whole are those before the cut and
those after it.
-/
import IssueQuery.Proofs.Token.FirstMatch

namespace IssueQuery.Token

/-- A token wherever it stands. -/
structure Shape where
  kind : Kind
  text : String
  deriving DecidableEq, Repr

def shape (t : Token) : Shape := ⟨t.kind, t.text⟩

/-- The tokens of a lexed text, wherever they stand. -/
def Lexed.shapes (l : Lexed) : List Shape := l.tokens.map shape

/-- The characters consist of the tokens, with blanks before, between and after them. -/
inductive Lexes : List Char → List Shape → Prop
  | done {cs : List Char} : (∀ c ∈ cs, Text.isBlank c = true) → Lexes cs []
  | token {blanks text rest : List Char} {kind : Kind} {ss : List Shape} :
    (∀ b ∈ blanks, Text.isBlank b = true) → firstMatch? (text ++ rest) = some (kind, text.length) →
    Lexes rest ss → Lexes (blanks ++ (text ++ rest)) (⟨kind, String.ofList text⟩ :: ss)

theorem Lexes.first {text rest : List Char} {kind : Kind} {ss : List Shape}
    (h : firstMatch? (text ++ rest) = some (kind, text.length)) (hrest : Lexes rest ss) :
    Lexes (text ++ rest) (⟨kind, String.ofList text⟩ :: ss) :=
  .token (List.forall_mem_nil _) h hrest

theorem lexes_nil_iff {cs : List Char} : Lexes cs [] ↔ ∀ c ∈ cs, Text.isBlank c = true := by
  constructor
  · intro h
    generalize hss : ([] : List Shape) = ss at h
    cases h with
    | done hb => exact hb
    | token => cases hss
  · exact .done

/-! ## The lexer -/

/-- What the lexer does with a text it can cut: it finds only blanks, or passes over some and cuts a
token, and goes on behind it. -/
theorem scan_cases {offset : Nat} {cs : List Char} {l : Lexed} (h : scan offset cs = .ok l) :
    ((∀ c ∈ cs, Text.isBlank c = true) ∧ l = ⟨[], offset + Text.byteLength cs⟩) ∨
    ∃ blanks text rest kind l', cs = blanks ++ (text ++ rest) ∧ (∀ b ∈ blanks, Text.isBlank b = true) ∧
      firstMatch? (text ++ rest) = some (kind, text.length) ∧
      scan (offset + Text.byteLength blanks + Text.byteLength text) rest = .ok l' ∧
      l = l'.behind ⟨kind, String.ofList text, offset + Text.byteLength blanks⟩ := by
  have hsplit := (List.takeWhile_append_dropWhile (p := Text.isBlank) (l := cs)).symm
  have hblank : ∀ b ∈ cs.takeWhile Text.isBlank, Text.isBlank b = true := fun b => List.mem_takeWhile_imp
  rw [scan] at h
  split at h
  · rename_i hnil
    cases h
    have hall := List.dropWhile_eq_nil_iff.1 hnil
    rw [List.takeWhile_eq_self_iff.2 hall]
    exact .inl ⟨hall, rfl⟩
  · rename_i c rest hrest
    split at h
    · cases h
    · rename_i kind n hm
      have hle := length_le_of_firstMatch? hm
      dsimp only at h
      cases hs : scan (offset + Text.byteLength (cs.takeWhile Text.isBlank) +
          Text.byteLength ((c :: rest).take n)) ((c :: rest).drop n) with
      | error e => rw [hs] at h; cases h
      | ok l' =>
        rw [hs] at h
        cases h
        refine .inr ⟨_, (c :: rest).take n, (c :: rest).drop n, kind, l', ?_, hblank, ?_, hs, rfl⟩
        · rw [List.take_append_drop, ← hrest]
          exact hsplit
        · rw [List.take_append_drop, List.length_take_of_le hle]
          exact hm

/-- What holds where there are only blanks, and holds of a token with what holds behind it, holds of every text
that the lexer can cut. -/
theorem scan_induction {P : Nat → List Char → Lexed → Prop}
    (blank : ∀ {offset cs}, (∀ c ∈ cs, Text.isBlank c = true) → P offset cs ⟨[], offset + Text.byteLength cs⟩)
    (token : ∀ {offset blanks text rest kind l}, (∀ b ∈ blanks, Text.isBlank b = true) →
      firstMatch? (text ++ rest) = some (kind, text.length) →
      P (offset + Text.byteLength blanks + Text.byteLength text) rest l →
      P offset (blanks ++ (text ++ rest)) (l.behind ⟨kind, String.ofList text, offset + Text.byteLength blanks⟩))
    {offset : Nat} {cs : List Char} {l : Lexed} (h : scan offset cs = .ok l) : P offset cs l := by
  induction hn : cs.length using Nat.strong_induction_on generalizing offset cs l with
  | _ n ih =>
    obtain ⟨hblank, rfl⟩ | ⟨blanks, text, rest, kind, l', rfl, hblank, hm, hrest, rfl⟩ := scan_cases h
    · exact blank hblank
    · have := pos_of_firstMatch? hm
      exact token hblank hm (ih rest.length (by simp only [List.length_append] at hn; omega) hrest rfl)

theorem lexes_of_scan {offset : Nat} {cs : List Char} {l : Lexed} (h : scan offset cs = .ok l) : Lexes cs l.shapes :=
  scan_induction (P := fun _ cs l => Lexes cs l.shapes) .done .token h

/-- The text ends where the lexer does. -/
theorem stop_of_scan {offset : Nat} {cs : List Char} {l : Lexed} (h : scan offset cs = .ok l) :
    l.stop = offset + Text.byteLength cs := by
  refine scan_induction (P := fun offset cs l => l.stop = offset + Text.byteLength cs) (fun _ => rfl) ?_ h
  intro offset blanks text rest kind l _ _ hl
  simp only [Lexed.behind, Text.byteLength_append, hl]
  omega

/-- What the lexer does with a text it cannot cut: behind some blanks it finds a character that begins no
token, or it cuts a token there and fails behind it. -/
theorem scan_error_cases {offset : Nat} {cs : List Char} {e : SyntaxError} (h : scan offset cs = .error e) :
    ∃ blanks, (∀ b ∈ blanks, Text.isBlank b = true) ∧
      ((∃ c rest, cs = blanks ++ c :: rest ∧ firstMatch? (c :: rest) = none ∧
        e = .unrecognised c (offset + Text.byteLength blanks)) ∨
      ∃ text rest kind, cs = blanks ++ (text ++ rest) ∧ firstMatch? (text ++ rest) = some (kind, text.length) ∧
        scan (offset + Text.byteLength blanks + Text.byteLength text) rest = .error e) := by
  have hsplit := (List.takeWhile_append_dropWhile (p := Text.isBlank) (l := cs)).symm
  refine ⟨cs.takeWhile Text.isBlank, fun b => List.mem_takeWhile_imp, ?_⟩
  rw [scan] at h
  split at h
  · cases h
  · rename_i c rest hrest
    rw [hrest] at hsplit
    split at h
    · rename_i hm
      cases h
      exact .inl ⟨c, rest, hsplit, hm, rfl⟩
    · rename_i kind n hm
      dsimp only at h
      cases hs : scan (offset + Text.byteLength (cs.takeWhile Text.isBlank) +
          Text.byteLength ((c :: rest).take n)) ((c :: rest).drop n) with
      | ok us => rw [hs] at h; cases h
      | error e =>
        rw [hs] at h
        cases h
        refine .inr ⟨(c :: rest).take n, (c :: rest).drop n, kind, ?_, ?_, hs⟩
        · rwa [List.take_append_drop]
        · rw [List.take_append_drop, List.length_take_of_le (length_le_of_firstMatch? hm)]
          exact hm

/-- The lexer fails at a foreign character only. -/
theorem eq_unrecognised_of_scan {offset : Nat} {cs : List Char} {e : SyntaxError} (h : scan offset cs = .error e) :
    ∃ c o, e = .unrecognised c o := by
  induction hn : cs.length using Nat.strong_induction_on generalizing offset cs with
  | _ n ih =>
    obtain ⟨blanks, -, ⟨c, rest, -, -, he⟩ | ⟨text, rest, kind, rfl, hm, hrest⟩⟩ := scan_error_cases h
    · exact ⟨_, _, he⟩
    · have := pos_of_firstMatch? hm
      exact ih rest.length (by simp only [List.length_append] at hn; omega) hrest rfl

theorem startsSymbol_blank {c : Char} (h : Text.isBlank c = true) : startsSymbol c = false := by
  have : c ≠ '#' := by rintro rfl; exact absurd h (by decide)
  simp [startsSymbol, Text.isWord_eq_false_of_isBlank h, this]

theorem firstMatch?_blank {c : Char} (h : Text.isBlank c = true) (cs : List Char) :
    firstMatch? (c :: cs) = none := by
  refine firstMatch?_eq_none cs (startsSymbol_blank h) fun hm => ?_
  have hsigns : ("AON&|~!-;()\",%.<>*".toList.all fun d => !Text.isBlank d) = true := by decide
  simpa [h] using List.all_eq_true.1 hsigns c hm

/-- No token begins with a colon. -/
theorem firstMatch?_colon (cs : List Char) : firstMatch? (':' :: cs) = none :=
  firstMatch?_eq_none cs (by decide +kernel) (by decide)

theorem exists_of_firstMatch? {cs : List Char} {kind : Kind} {n : Nat} (h : firstMatch? cs = some (kind, n)) :
    ∃ c rest, cs = c :: rest ∧ Text.isBlank c = false ∧ c ≠ ':' := by
  cases cs with
  | nil =>
    have := pos_of_firstMatch? h
    have := length_le_of_firstMatch? h
    rw [List.length_nil] at this
    omega
  | cons c rest =>
    refine ⟨c, rest, rfl, ?_, ?_⟩
    · by_contra hb
      rw [firstMatch?_blank (by simpa using hb)] at h
      cases h
    · rintro rfl
      rw [firstMatch?_colon] at h
      cases h

theorem exists_scan_of_lexes {cs : List Char} {ss : List Shape} (h : Lexes cs ss) (offset : Nat) :
    ∃ l, scan offset cs = .ok l ∧ l.shapes = ss := by
  induction h generalizing offset with
  | @done cs hb =>
    refine ⟨⟨[], offset + Text.byteLength (cs.takeWhile Text.isBlank)⟩, ?_, rfl⟩
    rw [scan]
    split
    · rfl
    · rename_i c rest hrest
      rw [List.dropWhile_eq_nil_iff.2 hb] at hrest
      cases hrest
  | @token blanks text rest kind ss hb hm _ ih =>
    obtain ⟨c, tail, hc, hblank, -⟩ := exists_of_firstMatch? hm
    -- no token begins with a blank, so the blanks that are dropped are those of the relation
    have hdrop : (blanks ++ (text ++ rest)).dropWhile Text.isBlank = c :: tail := by
      rw [List.dropWhile_append_of_pos hb, hc, List.dropWhile_cons_of_neg (by simp [hblank])]
    rw [scan]
    split
    · rename_i hnil; rw [hdrop] at hnil; cases hnil
    · rename_i c' tail' hrest
      rw [hdrop] at hrest
      cases hrest
      split
      · rename_i hnone; rw [← hc, hm] at hnone; cases hnone
      · rename_i kind' n hm'
        rw [← hc, hm] at hm'
        cases hm'
        obtain ⟨l, hl, rfl⟩ := ih (offset + Text.byteLength ((blanks ++ (text ++ rest)).takeWhile Text.isBlank) +
          Text.byteLength text)
        simp only [← hc, List.take_left, List.drop_left, hl]
        exact ⟨_, rfl, rfl⟩

/-! ## Joining and cutting texts -/

theorem Lexes.unique {cs : List Char} {ss ss' : List Shape} (h : Lexes cs ss) (h' : Lexes cs ss') : ss = ss' := by
  obtain ⟨l, hl, rfl⟩ := exists_scan_of_lexes h 0
  obtain ⟨l', hl', rfl⟩ := exists_scan_of_lexes h' 0
  rw [hl] at hl'
  cases hl'
  rfl

theorem Lexes.blanks_append {blanks cs : List Char} {ss : List Shape}
    (hb : ∀ b ∈ blanks, Text.isBlank b = true) (h : Lexes cs ss) : Lexes (blanks ++ cs) ss := by
  cases h with
  | done hc => exact .done fun c hm => (List.mem_append.1 hm).elim (hb c) (hc c)
  | token hb' hm hrest =>
    rw [← List.append_assoc]
    exact .token (fun c hc => (List.mem_append.1 hc).elim (hb c) (hb' c)) hm hrest

theorem Lexes.not_colon {cs : List Char} {ss : List Shape} (h : Lexes cs ss) :
    ':' ∉ (Text.trimStart cs).head? := by
  unfold Text.trimStart
  cases h with
  | done hc => rw [List.dropWhile_eq_nil_iff.2 hc]; simp
  | token hb hm =>
    obtain ⟨c, tail, hc, hblank, hcolon⟩ := exists_of_firstMatch? hm
    rw [List.dropWhile_append_of_pos hb, hc, List.dropWhile_cons_of_neg (by simp [hblank])]
    simpa using hcolon

theorem Lexes.breaks {cs : List Char} {ss : List Shape} (h : Lexes cs ss)
    (hc : ∀ c ∈ cs.head?, prolongs c = false) : Breaks cs := ⟨hc, h.not_colon⟩

theorem Lexes.append {a b : List Char} {ss us : List Shape} (ha : Lexes a ss) (hb : Lexes b us)
    (hc : ∀ c ∈ b.head?, prolongs c = false) : Lexes (a ++ b) (ss ++ us) := by
  have hbreaks := hb.breaks hc
  induction ha with
  | done hblank => exact hb.blanks_append hblank
  | @token blanks text rest kind ss hblank hm _ ih =>
    have hne : text ++ rest ≠ [] := by
      obtain ⟨c, tail, h, -⟩ := exists_of_firstMatch? hm
      rw [h]
      exact List.cons_ne_nil _ _
    -- the rule for the token sees nothing behind the break
    simp only [List.append_assoc, List.cons_append]
    refine .token hblank ?_ ih
    rw [← List.append_assoc, firstMatch?_append hne hbreaks, hm]

/-- A text that begins with a token has it for its first. -/
theorem Lexes.of_first {text rest : List Char} {kind : Kind} {us : List Shape}
    (hm : firstMatch? (text ++ rest) = some (kind, text.length)) (h : Lexes (text ++ rest) us) :
    ∃ ss, us = ⟨kind, String.ofList text⟩ :: ss ∧ Lexes rest ss := by
  obtain ⟨c, tail, hc, hblank, -⟩ := exists_of_firstMatch? hm
  generalize hcs : text ++ rest = cs at h hm hc
  cases h with
  | done hb =>
    rw [hb c (by simp [hc])] at hblank
    cases hblank
  | @token blanks text' rest' kind' ss hb hm' hrest =>
    obtain rfl : blanks = [] := by
      cases blanks with
      | nil => rfl
      | cons b blanks =>
        obtain ⟨rfl, -⟩ := List.cons.inj hc
        rw [hb b (List.mem_cons_self ..)] at hblank
        cases hblank
    rw [List.nil_append] at hcs hm
    rw [hm'] at hm
    obtain ⟨rfl, hlength⟩ := Prod.mk.inj (Option.some.inj hm)
    obtain ⟨rfl, rfl⟩ := List.append_inj hcs hlength.symm
    exact ⟨ss, rfl, hrest⟩

theorem Lexes.of_append {a b : List Char} {us : List Shape} (h : Lexes (a ++ b) us) (hb : Breaks b) :
    ∃ ss ts, Lexes a ss ∧ Lexes b ts ∧ us = ss ++ ts := by
  generalize hcs : a ++ b = cs at h
  induction h generalizing a with
  | done hblank =>
    subst hcs
    exact ⟨[], [], .done fun c hc => hblank c (List.mem_append_left _ hc),
      .done fun c hc => hblank c (List.mem_append_right _ hc), rfl⟩
  | @token blanks text rest kind ss hblank hm hrest ih =>
    rcases List.append_eq_append_iff.1 hcs with ⟨blanks', rfl, rfl⟩ | ⟨a', rfl, ha'⟩
    · -- the cut lies in the blanks
      exact ⟨[], _, .done fun c hc => hblank c (List.mem_append_left _ hc),
        .token (fun c hc => hblank c (List.mem_append_right _ hc)) hm hrest, rfl⟩
    · by_cases hne : a' = []
      · subst hne
        refine ⟨[], _, .done fun c hc => hblank c (by simpa using hc), ?_, rfl⟩
        rw [List.nil_append] at ha'
        rw [← ha']
        exact .first hm hrest
      · -- the token ends before the cut
        rw [ha'] at hm
        have hle : text.length ≤ a'.length := by
          obtain ⟨rule, hr, hn⟩ := exists_rule_of_firstMatch? hm
          exact (isLocal_of_mem_rules hr).append_le hne hb hn
        obtain ⟨a'', rfl⟩ : text <+: a' :=
          List.prefix_of_prefix_length_le (List.prefix_append text rest) (ha' ▸ List.prefix_append a' b) hle
        rw [List.append_assoc, List.append_cancel_left_eq] at ha'
        obtain ⟨ss', ts, h1, h2, rfl⟩ := ih ha'.symm
        exact ⟨_, ts, .token hblank (firstMatch?_of_append hm hle) h1, h2, rfl⟩

/-! ## Texts of tokens -/

/-- The text of a token is a token by itself. -/
theorem Lexes.genuine {cs : List Char} {ss : List Shape} (h : Lexes cs ss) :
    ∀ s ∈ ss, firstMatch? s.text.toList = some (s.kind, s.text.toList.length) := by
  induction h with
  | done => simp
  | token _ hm _ ih =>
    intro s hs
    rcases List.mem_cons.1 hs with rfl | hs
    · rw [String.toList_ofList]
      exact firstMatch?_of_append hm le_rfl
    · exact ih s hs

theorem Lexes.isInfix {cs : List Char} {ss : List Shape} (h : Lexes cs ss) : ∀ s ∈ ss, s.text.toList <:+: cs := by
  induction h with
  | done => simp
  | @token blanks text rest kind ss _ _ _ ih =>
    intro s hs
    rcases List.mem_cons.1 hs with rfl | hs
    · rw [String.toList_ofList]
      exact ⟨blanks, rest, by simp⟩
    · exact (ih s hs).trans ⟨blanks ++ text, [], by simp⟩

/-- A text that one rule takes whole is a token. -/
theorem lexes_single {text : List Char} {kind : Kind} (h : firstMatch? text = some (kind, text.length)) :
    Lexes text [⟨kind, String.ofList text⟩] := by
  have h : Lexes (text ++ []) [⟨kind, String.ofList text⟩] :=
    .first (by rwa [List.append_nil]) (.done (List.forall_mem_nil _))
  rwa [List.append_nil] at h

/-! ## Whole texts -/

theorem prolongs_blank {c : Char} (h : Text.isBlank c = true) : prolongs c = false := by
  have hsigns : (("/.'+-".toList ++ "&|=:".toList).all fun d => !Text.isBlank d) = true := by decide
  by_contra hp
  rw [Bool.not_eq_false] at hp
  simp only [prolongs, continuesSymbol, Text.isWord_eq_false_of_isBlank h, Bool.false_or, Bool.or_eq_true,
    List.contains_iff_mem] at hp
  simpa [h] using List.all_eq_true.1 hsigns c (List.mem_append.2 hp)

theorem IsSymbol.isBlank_eq_false {cs : List Char} (h : IsSymbol cs) : ∀ c ∈ cs, Text.isBlank c = false := by
  cases h with
  | mk hstart hcontinue =>
    intro c hc
    by_contra hb
    rw [Bool.not_eq_false] at hb
    rcases List.mem_cons.1 hc with rfl | hc
    · rw [startsSymbol_blank hb] at hstart
      cases hstart
    · have := prolongs_blank hb
      rw [prolongs, hcontinue c hc] at this
      cases this

theorem breaks_blanks {cs : List Char} (h : ∀ c ∈ cs, Text.isBlank c = true) : Breaks cs where
  head c hc := prolongs_blank (h c (List.mem_of_mem_head? hc))
  colon := by rw [Text.trimStart, List.dropWhile_eq_nil_iff.2 h]; simp

theorem exists_trimEnd_append (cs : List Char) :
    ∃ blanks, cs = Text.trimEnd cs ++ blanks ∧ ∀ b ∈ blanks, Text.isBlank b = true := by
  refine ⟨(cs.reverse.takeWhile Text.isBlank).reverse, ?_, fun b hb => ?_⟩
  · rw [Text.trimEnd, ← List.reverse_append, List.takeWhile_append_dropWhile, List.reverse_reverse]
  · exact List.mem_takeWhile_imp (List.mem_reverse.1 hb)

theorem lexes_trimEnd_iff {cs : List Char} {ss : List Shape} : Lexes (Text.trimEnd cs) ss ↔ Lexes cs ss := by
  obtain ⟨blanks, hcs, hb⟩ := exists_trimEnd_append cs
  generalize Text.trimEnd cs = a at hcs
  subst hcs
  constructor
  · intro h
    have := h.append (.done hb) (breaks_blanks hb).head
    rwa [List.append_nil] at this
  · intro h
    obtain ⟨ss, ts, h1, h2, rfl⟩ := h.of_append (breaks_blanks hb)
    rwa [h2.unique (.done hb), List.append_nil]

theorem lexes_of_lex {s : String} {l : Lexed} (h : lex s = .ok l) : Lexes s.toList l.shapes :=
  lexes_trimEnd_iff.1 (lexes_of_scan h)

theorem exists_lex_of_lexes {s : String} {ss : List Shape} (h : Lexes s.toList ss) :
    ∃ l, lex s = .ok l ∧ l.shapes = ss :=
  exists_scan_of_lexes (lexes_trimEnd_iff.2 h) 0

theorem stop_of_lex {s : String} {l : Lexed} (h : lex s = .ok l) : l.stop = stopOf s := by
  rw [stop_of_scan h, Nat.zero_add, stopOf]

/-- A token begins before the text ends. -/
theorem offset_lt_of_scan {offset : Nat} {cs : List Char} {l : Lexed} (h : scan offset cs = .ok l) :
    ∀ t ∈ l.tokens, t.offset < offset + Text.byteLength cs := by
  refine scan_induction (P := fun offset cs l => ∀ t ∈ l.tokens, t.offset < offset + Text.byteLength cs)
    (fun _ => List.forall_mem_nil _) ?_ h
  intro offset blanks text rest kind l _ hm ih
  have hpos : 0 < Text.byteLength text := by
    obtain ⟨c, cs, rfl⟩ := List.exists_cons_of_length_pos (pos_of_firstMatch? hm)
    exact Nat.add_pos_left c.utf8Size_pos _
  simp only [Text.byteLength_append]
  refine List.forall_mem_cons.2 ⟨?_, fun t ht => ?_⟩
  · dsimp only
    omega
  · have := ih t ht
    omega

theorem eq_unrecognised_of_lex {s : String} {e : SyntaxError} (h : lex s = .error e) :
    ∃ c o, e = .unrecognised c o :=
  eq_unrecognised_of_scan h

theorem offset_lt_of_lex {s : String} {l : Lexed} (h : lex s = .ok l) : ∀ t ∈ l.tokens, t.offset < stopOf s := by
  intro t ht
  have := offset_lt_of_scan h t ht
  rwa [Nat.zero_add] at this

theorem isSymbol_iff {s : String} :
    isSymbol s = true ↔ firstMatch? s.toList = some (.symbol, s.toList.length) := by
  constructor
  · intro h
    unfold isSymbol at h
    split at h
    · rename_i t stop hl
      simp only [Bool.and_eq_true, beq_iff_eq] at h
      have := (lexes_of_lex hl).genuine (shape t) (by simp [Lexed.shapes])
      rwa [shape, h.1, h.2] at this
    · cases h
  · intro h
    obtain ⟨l, hl, hss⟩ := exists_lex_of_lexes (lexes_single h)
    rw [String.ofList_toList] at hss
    obtain ⟨ts, stop⟩ := l
    obtain ⟨t, rfl, ht⟩ := List.map_eq_singleton_iff.1 hss
    obtain ⟨hk, hs⟩ := Shape.mk.inj ht
    simp [isSymbol, hl, hk, hs]

/-! ## Signs and spaces -/

theorem Lexes.sign {kind : Kind} {s : String} (h : (kind, s) ∈ signs) {rest : List Char} {ss : List Shape}
    (hrest : Lexes rest ss) : Lexes (s.toList ++ rest) (⟨kind, s⟩ :: ss) := by
  have := Lexes.first (firstMatch?_sign h rest) hrest
  rwa [String.ofList_toList] at this

theorem Lexes.of_sign {kind : Kind} {s : String} (h : (kind, s) ∈ signs) {cs : List Char} {us : List Shape}
    (hl : Lexes (s.toList ++ cs) us) : ∃ ss, us = ⟨kind, s⟩ :: ss ∧ Lexes cs ss := by
  have := hl.of_first (firstMatch?_sign h cs)
  rwa [String.ofList_toList] at this

theorem isBlank_space : Text.isBlank ' ' = true := by decide

theorem Lexes.space {cs : List Char} {ss : List Shape} (h : Lexes cs ss) : Lexes (' ' :: cs) ss := by
  have hb : ∀ b ∈ [' '], Text.isBlank b = true := by simpa using isBlank_space
  exact h.blanks_append hb

theorem Lexes.append_space {a b : List Char} {ss us : List Shape} (ha : Lexes a ss) (hb : Lexes b us) :
    Lexes (a ++ ' ' :: b) (ss ++ us) :=
  ha.append hb.space (by simpa using prolongs_blank isBlank_space)

/-! ## Brackets -/

theorem prolongs_bracket : prolongs '(' = false ∧ prolongs ')' = false := by decide +kernel

theorem breaks_bracket {c : Char} (hc : c = '(' ∨ c = ')') (cs : List Char) : Breaks (c :: cs) where
  head := by rcases hc with rfl | rfl <;> simp [prolongs_bracket]
  colon := by
    rcases hc with rfl | rfl
    · rw [Text.trimStart_cons (by decide)]; simp
    · rw [Text.trimStart_cons (by decide)]; simp

theorem openBracket_mem_signs : (.openBracket, "(") ∈ signs := by simp [signs]

theorem closeBracket_mem_signs : (.closeBracket, ")") ∈ signs := by simp [signs]

/-- A text with a part between brackets has the tokens of that part between brackets, whatever these
are and whatever stands around them. -/
theorem lexes_around_iff {lead text rest : List Char} {us : List Shape} :
    Lexes (lead ++ '(' :: (text ++ ')' :: rest)) us ↔ ∃ as xs bs,
      us = as ++ ⟨.openBracket, "("⟩ :: (xs ++ ⟨.closeBracket, ")"⟩ :: bs) ∧
        Lexes lead as ∧ Lexes text xs ∧ Lexes rest bs := by
  constructor
  · intro h
    obtain ⟨as, os, has, hopen, rfl⟩ := h.of_append (breaks_bracket (.inl rfl) _)
    obtain ⟨ts, rfl, hinner⟩ := Lexes.of_sign openBracket_mem_signs hopen
    obtain ⟨xs, cs, hxs, hclose, rfl⟩ := hinner.of_append (breaks_bracket (.inr rfl) _)
    obtain ⟨bs, rfl, hbs⟩ := Lexes.of_sign closeBracket_mem_signs hclose
    exact ⟨as, xs, bs, rfl, has, hxs, hbs⟩
  · rintro ⟨as, xs, bs, rfl, has, hxs, hbs⟩
    have hclose := hxs.append (Lexes.sign closeBracket_mem_signs hbs) (breaks_bracket (.inr rfl) _).head
    exact has.append (Lexes.sign openBracket_mem_signs hclose) (breaks_bracket (.inl rfl) _).head

end IssueQuery.Token
