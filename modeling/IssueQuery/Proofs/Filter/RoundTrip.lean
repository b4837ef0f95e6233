/-
Filters that are written and read again. Whatever the leaves of a filter, as long as the notation can
tell them, its text is read as a filter with the same conjuncts; and it is read as the same filter
exactly if no negation stands behind two conjuncts or more, and keywords have nothing but texts.
-/
import IssueQuery.Proofs.Filter.Bare
import IssueQuery.Proofs.Filter.Spelling

namespace IssueQuery.Filter

open Token (Shape Lexes)
open Qualifier (Content)

/-- Whether a negation comes first. -/
def opensWithNot (us : List Shape) : Bool := us.head?.any (·.kind == .not)

/-- No qualifier among the tokens names the keyword, so no leaf of theirs is an odd keyword. -/
def NamesNoKeyword (ss : List Shape) : Prop :=
  ∀ s ∈ ss, s.kind = .qualifier → Qualifier.Kind.ofName s.name ≠ .keyword

theorem NamesNoKeyword.append {ss us : List Shape} (h : NamesNoKeyword ss) (h' : NamesNoKeyword us) :
    NamesNoKeyword (ss ++ us) := by
  rintro s hs
  rcases List.mem_append.1 hs with hs | hs
  · exact h s hs
  · exact h' s hs

theorem NamesNoKeyword.cons {s : Shape} {ss : List Shape} (hs : s.kind ≠ .qualifier) (h : NamesNoKeyword ss) :
    NamesNoKeyword (s :: ss) := by
  rintro u hu hk
  rcases List.mem_cons.1 hu with rfl | hu
  · exact absurd hk hs
  · exact h u hu hk

theorem NamesNoKeyword.bracketed {ss : List Shape} (h : NamesNoKeyword ss) : NamesNoKeyword (bracketed ss) := by
  refine .cons (by simp) (h.append (.cons (by simp) ?_))
  exact fun s hs => absurd hs (by simp)

theorem NamesNoKeyword.guardedTokens {f : Filter} {ss : List Shape} (h : NamesNoKeyword ss) :
    NamesNoKeyword (guardedTokens f ss) := by
  unfold Filter.guardedTokens
  split
  · exact h.bracketed
  · exact h

theorem IsContent.namesNoKeyword {name : String} {ss : List Shape} {c : Content} (h : IsContent name ss c) :
    NamesNoKeyword ss := by
  rintro s hs hk
  have := h.kind_mem s hs
  rw [hk] at this
  exact absurd this (by decide)

theorem Spells.namesNoKeyword {f : Filter} {ss : List Shape} (h : Spells f ss) : NamesNoKeyword ss := by
  induction h with
  | text hc => exact hc.namesNoKeyword
  | number => exact .cons (by simp) fun s hs => absurd hs (by simp)
  | mute _ hc => exact hc.namesNoKeyword
  | named hname hk hc =>
    rintro s hs hkind
    rcases List.mem_cons.1 hs with rfl | hs
    · rwa [hname.name]
    · exact hc.namesNoKeyword s hs hkind
  | and _ _ ihl ihr => exact ihl.append ihr.guardedTokens
  | or _ _ ihl ihr => exact (ihl.append (ihr.cons (by simp))).bracketed
  | not _ ih => exact ih.guardedTokens.cons (by simp)

/-! ## Brackets -/

/-- An expression between brackets. -/
theorem isOperand_bracketed {us : List Shape} {f : Filter}
    (h : ∀ c : Shape, c.kind = .closeBracket → ∀ rest, Reads (.expression 0) (us ++ c :: rest) f (c :: rest)) :
    IsOperand (bracketed us) f := by
  intro rest _
  rw [bracketed, List.cons_append, List.append_assoc]
  exact .brackets rfl (h _ rfl rest) rfl

/-- A row of conjuncts between brackets. -/
theorem IsTail.isOperand_bracketed {us ts : List Shape} {f : Filter} {xs : List Term} (hts : IsTail ts xs)
    (hf : IsOperand us f) : IsOperand (bracketed (us ++ ts)) (conjoin f xs) := by
  refine Filter.isOperand_bracketed fun c hc rest => ?_
  rw [List.append_assoc]
  exact hts.reads_conjoin (settled_of_close hc) (bindsWithin_close hc 1 rest) hf (by omega)
    (.stop (bindsWithin_close hc 0 rest))

/-- Two rows of conjuncts between brackets, of which either will do. -/
theorem IsTail.isOperand_or {us ts us' ts' : List Shape} {f f' : Filter} {xs xs' : List Term} (hts : IsTail ts xs)
    (hf : IsOperand us f) (hts' : IsTail ts' xs') (hf' : IsOperand us' f') :
    IsOperand (bracketed (us ++ ts ++ ⟨.or, "OR"⟩ :: (us' ++ ts'))) (or (conjoin f xs) (conjoin f' xs')) := by
  refine Filter.isOperand_bracketed fun c hc rest => ?_
  have hb (level : Nat) := bindsWithin_close hc level rest
  have hor : (Shape.mk .or "OR").kind.power = 1 := rfl
  have hright : Reads (.expression 1) (us' ++ ts' ++ c :: rest) (conjoin f' xs') (c :: rest) := by
    rw [List.append_assoc]
    exact hts'.reads_conjoin (settled_of_close hc) (hb 1) hf' le_rfl (.stop (hb 1))
  have hchain : Reads (.chain 0 (conjoin f xs)) (⟨.or, "OR"⟩ :: (us' ++ ts' ++ c :: rest))
      (or (conjoin f xs) (conjoin f' xs')) (c :: rest) := .or rfl (by omega) hright (.stop (hb 0))
  have := hts.reads_conjoin (settled_of_power (by omega)) (bindsWithin_cons.2 hor.le) hf (by omega) hchain
  simpa using this

/-! ## Filters -/

/-- The tokens are a row of conjuncts, as the text of the filter shows them. -/
structure IsRow (e : Filter) (us ts : List Shape) : Prop where
  operand : IsOperand us e.row.1
  tail : IsTail ts e.row.2
  opens : e.isJoined = false → opensWithNot us = e.isNegation

/-- A filter that is no conjunction is a row of its own. -/
theorem isRow_of_isOperand {e : Filter} {us : List Shape} (hj : e.isJoined = false) (h : IsOperand us e.row.1)
    (hopens : opensWithNot us = e.isNegation) : IsRow e us [] where
  operand := h
  tail := by
    rw [row_eq_nil_iff.2 hj]
    exact .nil
  opens _ := hopens

/-- The text of a filter that stands behind a connective is an operand. -/
theorem IsRow.guarded {e : Filter} {us ts : List Shape} (h : IsRow e us ts) :
    IsOperand (guardedTokens e (us ++ ts)) e.reread ∧ opensWithNot (guardedTokens e (us ++ ts)) = e.isNegation := by
  unfold guardedTokens
  split
  · rename_i hj
    have hnot : e.isNegation = false := by cases e <;> simp [isJoined] at hj; rfl
    exact ⟨h.tail.isOperand_bracketed h.operand, by rw [hnot]; rfl⟩
  · rename_i hj
    have hj : e.isJoined = false := by simpa using hj
    have htail := h.tail
    rw [row_eq_nil_iff.2 hj] at htail
    obtain rfl : ts = [] := by cases htail; rfl
    rw [List.append_nil, reread_eq (row_eq_nil_iff.2 hj)]
    exact ⟨h.operand, h.opens hj⟩

theorem guardedTokens_bare (e : Filter) (ss : List Shape) : guardedTokens e.bare ss = guardedTokens e ss := by
  rw [guardedTokens, isJoined_bare, guardedTokens]

/-- The tokens of a leaf that is a keyword with a text. -/
theorem isOperand_keyword {ss : List Shape} {s : String} (h : IsContent "keyword" ss (.text s)) :
    IsOperand ss (leaf (.keyword s)) ∧ opensWithNot ss = false := by
  cases h with
  | dates _ h => cases h
  | numbers _ h => cases h
  | quoted _ hq =>
    refine ⟨fun rest _ => .quoted hq, ?_⟩
    cases hq with
    | mk ho => simp [opensWithNot, ho]
  | symbol _ hk => exact ⟨fun rest _ => .symbol hk, by simp [opensWithNot, hk]⟩

/-- The tokens of a filter fall into those of what stands first in its row and those of the others, if
its keywords have texts to search for. These are what the keywords are read with. -/
theorem Spells.exists_isRow {e : Filter} {ss : List Shape} (h : Spells e ss) :
    ∃ us ts, ss = us ++ ts ∧ ((∀ q ∈ e.qualifiers, q.HasKeywordText) → IsRow e.bare us ts) := by
  induction h with
  | @text ss s hc =>
    obtain ⟨hop, hopens⟩ := isOperand_keyword hc
    refine ⟨ss, [], (List.append_nil _).symm, fun _ => isRow_of_isOperand rfl ?_ hopens⟩
    have hbare : (Qualifier.keyword s).bare = .keyword s := Qualifier.bare_keyword (.text s)
    rw [bare, hbare]
    exact hop
  | @number n =>
    refine ⟨[⟨.symbol, toString n⟩], [], rfl, fun _ => isRow_of_isOperand rfl ?_ rfl⟩
    rw [bare, Qualifier.bare_keyword]
    exact fun _ _ => .symbol rfl
  | @mute ss c hmute =>
    refine ⟨ss, [], (List.append_nil _).symm, fun hk => ?_⟩
    have htext : c.asText?.isSome = true := hk _ (List.mem_singleton_self _) (Qualifier.kind_keyword c)
    rw [hmute] at htext
    cases htext
  | @named name ss c hname hkind hc =>
    refine ⟨⟨.qualifier, name ++ ":"⟩ :: ss, [], (List.append_nil _).symm,
      fun _ => isRow_of_isOperand rfl (fun rest hs => ?_) rfl⟩
    have hkind : (Qualifier.named name c).kind ≠ .keyword := by rwa [Qualifier.kind]
    rw [bare, Qualifier.bare_of_kind_ne hkind]
    refine .qualifier rfl ?_ hs
    rw [hname.name]
    exact .one hc
  | @and left right ss us _ _ ihl ihr =>
    obtain ⟨vs, ts, rfl, hl⟩ := ihl
    obtain ⟨vs', ts', rfl, hr⟩ := ihr
    -- the right side is one more conjunct of the row on the left
    refine ⟨vs, ts ++ guardedTokens right (vs' ++ ts'), List.append_assoc .., fun hk => ?_⟩
    have hleft := hl fun q hq => hk q (List.mem_append_left _ hq)
    obtain ⟨hop, hopens⟩ := (hr fun q hq => hk q (List.mem_append_right _ hq)).guarded
    rw [guardedTokens_bare] at hop hopens
    have htail := hleft.tail.bare_snoc hop
    rw [bare]
    exact { operand := hleft.operand
            tail := by
              rw [row, ← hopens]
              exact htail
            opens := fun hj => by cases hj }
  | @or left right ss us _ _ ihl ihr =>
    obtain ⟨vs, ts, rfl, hl⟩ := ihl
    obtain ⟨vs', ts', rfl, hr⟩ := ihr
    refine ⟨bracketed (vs ++ ts ++ ⟨.or, "OR"⟩ :: (vs' ++ ts')), [], (List.append_nil _).symm, fun hk => ?_⟩
    have hleft := hl fun q hq => hk q (List.mem_append_left _ hq)
    have hright := hr fun q hq => hk q (List.mem_append_right _ hq)
    exact isRow_of_isOperand rfl (hleft.tail.isOperand_or hleft.operand hright.tail hright.operand) rfl
  | @not inner ss _ ih =>
    obtain ⟨vs, ts, rfl, hi⟩ := ih
    refine ⟨⟨.not, "NOT"⟩ :: guardedTokens inner (vs ++ ts), [], (List.append_nil _).symm, fun hk => ?_⟩
    have hop := (hi hk).guarded.1
    rw [guardedTokens_bare] at hop
    refine isRow_of_isOperand rfl (fun rest hs => ?_) rfl
    exact .not rfl (.expression (hop rest hs) (.stop (bindsWithin_three rest)))

/-- The text of a filter shows its row of conjuncts. -/
structure Shows (e : Filter) (us ts : List Shape) : Prop where
  lexes : Lexes e.text.toList (us ++ ts)
  spells : Spells e (us ++ ts)
  row : (∀ q ∈ e.qualifiers, q.HasKeywordText) → IsRow e.bare us ts

theorem exists_shows {e : Filter} (h : ∀ q ∈ e.qualifiers, q.Legible) : ∃ us ts, Shows e us ts := by
  obtain ⟨ss, hss, hspells⟩ := exists_spells h
  obtain ⟨us, ts, rfl, hrow⟩ := hspells.exists_isRow
  exact ⟨us, ts, hss, hspells, hrow⟩

theorem Shows.namesNoKeyword {e : Filter} {us ts : List Shape} (h : Shows e us ts) : NamesNoKeyword (us ++ ts) :=
  h.spells.namesNoKeyword

/-- A filter whose keywords have texts to search for is read again as one with these texts for their
contents. -/
theorem parse_text_eq_bare {e : Filter} (h : ∀ q ∈ e.qualifiers, q.Legible)
    (hk : ∀ q ∈ e.qualifiers, q.HasKeywordText) : parse e.text = .ok e.bare.reread := by
  obtain ⟨us, ts, hshows⟩ := exists_shows h
  have hrow := hshows.row hk
  have hread : Reads (.expression 0) (us ++ (ts ++ [])) e.bare.reread [] :=
    hrow.tail.reads_conjoin (avoids_nil _) (bindsWithin_nil 1) hrow.operand (by omega) (.stop (bindsWithin_nil 0))
  rw [List.append_nil] at hread
  exact parse_eq_ok_iff.2 ⟨_, hshows.lexes, .expression hread⟩

theorem parse_text_eq_reread {e : Filter} (h : ∀ q ∈ e.qualifiers, q.Legible)
    (hk : ∀ q ∈ e.qualifiers, q.HasPlainKeyword) : parse e.text = .ok e.reread := by
  rw [parse_text_eq_bare h fun q hq => (hk q hq).hasKeywordText, bare_eq_self hk]

/-! ## Written and read again -/

/-- The leaf occurs in a filter that is read from a text which is not blank. -/
def Occurs (q : Qualifier) : Prop :=
  ∃ s f, (Text.trim s.toList).isEmpty = false ∧ parse s = .ok f ∧ q ∈ f.qualifiers

theorem Occurs.legible {q : Qualifier} (h : Occurs q) : q.Legible := by
  obtain ⟨s, f, hs, hf, hq⟩ := h
  obtain ⟨ss, hss, hr⟩ := exists_reads_of_parse hs hf
  exact legible_of_reads hss hr q hq

/-- The text of a filter is read, and as a filter with the same conjuncts. So it is satisfied by the
same issues in every setting, with its meta-qualifiers or without, and is applicable alike. -/
theorem parse_text {e : Filter} (h : ∀ q ∈ e.qualifiers, Occurs q) (hk : ∀ q ∈ e.qualifiers, q.HasPlainKeyword) :
    ∃ f, parse e.text = .ok f ∧ f.conjuncts = e.conjuncts ∧
      (∀ s i, f.isSatisfied s i = e.isSatisfied s i) ∧ (∀ m now i, f.accepts m now i = e.accepts m now i) ∧
      f.isApplicable = e.isApplicable := by
  have hc := conjuncts_reread e
  exact ⟨e.reread, parse_text_eq_reread (fun q hq => (h q hq).legible) hk, hc, isSatisfied_congr hc,
    accepts_congr hc, isApplicable_congr hc⟩

/-- Two words and the negation of a label in a group to the right. -/
theorem parse_text_grouped_right : ∃ f,
    parse (and (leaf (.keyword "a")) (and (leaf (.keyword "b")) (not (leaf (.named "label" (.text "x y")))))).text = .ok f ∧
      f.conjuncts = [leaf (.keyword "a"), leaf (.keyword "b"), not (leaf (.named "label" (.text "x y")))] := by
  have hparse : parse "a b label:\"x y\"" = .ok
      (and (and (leaf (.keyword "a")) (leaf (.keyword "b"))) (leaf (.named "label" (.text "x y")))) :=
    eq_ok_of_toOption (by decide +kernel)
  have hoccurs (q : Qualifier) (hq : q ∈ [.keyword "a", .keyword "b", .named "label" (.text "x y")]) : Occurs q :=
    ⟨_, _, by decide, hparse, by simpa [qualifiers] using hq⟩
  have hplain (q : Qualifier) (hq : q ∈ [.keyword "a", .keyword "b", .named "label" (.text "x y")]) :
      q.HasPlainKeyword := by
    simp only [List.mem_cons, List.not_mem_nil, or_false] at hq
    rcases hq with rfl | rfl | rfl <;> exact fun _ => ⟨_, rfl⟩
  obtain ⟨f, hf, hc, -⟩ := parse_text
    (e := and (leaf (.keyword "a")) (and (leaf (.keyword "b")) (not (leaf (.named "label" (.text "x y"))))))
    hoccurs hplain
  exact ⟨f, hf, hc⟩

/-- A filter that was read is read again as itself exactly if its keywords have texts and no negation
stands behind two conjuncts or more. -/
theorem parse_text_eq_self_iff {s : String} {e : Filter} (h : parse s = .ok e) :
    parse e.text = .ok e ↔ (∀ q ∈ e.qualifiers, q.HasPlainKeyword) ∧ e.KeepsGroups := by
  obtain ⟨ss, hss, hw⟩ := parse_eq_ok_iff.1 h
  cases hw with
  | empty =>
    have hblank : ∀ c ∈ empty.text.toList, Text.isBlank c = true :=
      fun c hc => absurd hc (by simp [text, empty, Qualifier.text])
    exact iff_of_true (parse_eq_ok_iff.2 ⟨[], .done hblank, .empty⟩)
      ⟨hasPlainKeyword_of_readsWhole .empty (List.forall_mem_nil _), trivial⟩
  | expression hr =>
    have hlegible := legible_of_reads hss hr
    constructor
    · intro h'
      -- the text names no keyword, so whatever is read from it has plain ones
      obtain ⟨us, ts, hshows⟩ := exists_shows hlegible
      obtain ⟨ss', hss', hw⟩ := parse_eq_ok_iff.1 h'
      obtain rfl := hss'.unique hshows.lexes
      have hk := hasPlainKeyword_of_readsWhole hw hshows.namesNoKeyword
      have hreread := parse_text_eq_reread hlegible hk
      rw [h'] at hreread
      exact ⟨hk, (reread_eq_self_iff e).1 (Except.ok.inj hreread).symm⟩
    · rintro ⟨hk, hg⟩
      rw [parse_text_eq_reread hlegible hk, (reread_eq_self_iff e).2 hg]

/-- A word and the negation of another keep their group. -/
theorem parse_text_word_not : ∃ e, parse "a -b" = .ok e ∧ parse e.text = .ok e := by
  have h : parse "a -b" = .ok (and (leaf (.keyword "a")) (not (leaf (.keyword "b")))) :=
    eq_ok_of_toOption (by decide +kernel)
  have hplain : ∀ q ∈ [Qualifier.keyword "a", .keyword "b"], q.HasPlainKeyword := by
    simp only [List.mem_cons, List.not_mem_nil, or_false]
    rintro q (rfl | rfl) <;> exact fun _ => ⟨_, rfl⟩
  exact ⟨_, h, (parse_text_eq_self_iff h).2 ⟨hplain, trivial, trivial, by simp [isJoined]⟩⟩

/-- A group of two words before a negation is lost, and so is the name of a keyword that is a number. -/
theorem exists_parse_text_ne : (∃ e, parse "(a b) -c" = .ok e ∧ parse e.text ≠ .ok e) ∧
    ∃ e, parse "keyword:5" = .ok e ∧ parse e.text ≠ .ok e := by
  constructor
  · refine ⟨and (and (leaf (.keyword "a")) (leaf (.keyword "b"))) (not (leaf (.keyword "c"))),
      eq_ok_of_toOption (by decide +kernel), fun h => ?_⟩
    have := congrArg Except.toOption h
    exact absurd this (by decide +kernel)
  · refine ⟨leaf (.named "keyword" (.number 5)), eq_ok_of_toOption (by decide +kernel), fun h => ?_⟩
    have := congrArg Except.toOption h
    exact absurd this (by decide +kernel)

end IssueQuery.Filter
