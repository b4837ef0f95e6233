/-
Terms joined by spaces or by `AND`. With the sign between them they are read as the conjunction
grouped to the left; without it the conjuncts are the same, but the groups are those to the left only
if no negation stands behind two terms or more.
-/
import IssueQuery.Proofs.Filter.Acceptance
import IssueQuery.Proofs.Filter.RoundTrip

namespace IssueQuery.Filter

open Token (Shape Lexes)

/-! ## Groups to the left -/

/-- How many conjunctions stand one in another at the left edge. -/
def spine : Filter → Nat
  | and left _ => left.spine + 1
  | _ => 0

theorem spine_foldl (f : Filter) (fs : List Filter) : (fs.foldl and f).spine = f.spine + fs.length := by
  induction fs generalizing f with
  | nil => rfl
  | cons g gs ih => rw [List.foldl_cons, ih, spine, List.length_cons]; omega

theorem clustered_of_forall {f : Filter} {xs : List Term} (h : ∀ x ∈ xs, x.clings = false) :
    clustered f xs = (f, xs.map Term.value) := by
  induction xs generalizing f with
  | nil => rfl
  | cons x xs ih =>
    rw [clustered, ih fun y hy => h y (List.mem_cons_of_mem _ hy)]
    simp [h x (List.mem_cons_self ..)]

theorem length_clustered (f : Filter) (xs : List Term) :
    (clustered f xs).2.length = xs.countP fun x => !x.clings := by
  induction xs generalizing f with
  | nil => rfl
  | cons x xs ih =>
    rw [clustered, List.countP_cons, ← ih x.value]
    by_cases hx : x.clings = true <;> simp [hx]

/-- The row is grouped to the left exactly if nothing clings behind the first two conjuncts. -/
theorem conjoin_eq_joined_iff (f : Filter) (xs : List Term) :
    conjoin f xs = joined (f :: xs.map Term.value) ↔ ∀ x ∈ xs.tail, x.clings = false := by
  cases xs with
  | nil => simp [conjoin, joined]
  | cons x xs =>
    rw [conjoin, joined, List.map_cons, List.tail_cons]
    constructor
    · intro h
      -- as many groups as conjuncts, so each conjunct is a group of its own
      have hlength := congrArg spine h
      simp only [spine_foldl, List.length_cons, List.length_map, length_clustered] at hlength
      have hcount : (xs.countP fun x => !x.clings) = xs.length := by omega
      simpa using List.countP_eq_length.1 hcount
    · intro h
      rw [clustered_of_forall h]

theorem conjuncts_conjoin_eq_joined (f : Filter) (xs : List Term) :
    (conjoin f xs).conjuncts = (joined (f :: xs.map Term.value)).conjuncts := by
  have hne : f :: xs.map Term.value ≠ [] := List.cons_ne_nil _ _
  rw [conjuncts_conjoin, map_joined (F := conjuncts) (fun _ _ => rfl) hne, List.flatMap_cons, List.flatMap_map]

/-! ## Terms -/

/-- The text is a word, a phrase between quotes, a qualifier with its content or a filter between
brackets, with negations before it or without, and it is read as the filter. -/
structure IsTerm (t : String) (e : Filter) : Prop where
  unary : ∃ ss g, Lexes t.toList ss ∧ Derives .unary ss g
  parse : parse t = .ok e

/-- The first token of the text is a negation. -/
def OpensWithNot (t : String) : Prop := ∃ ss, Lexes t.toList ss ∧ opensWithNot ss = true

theorem parse_of_isOperand {t : String} {ss : List Shape} {e : Filter} (hl : Lexes t.toList ss) (h : IsOperand ss e) :
    Filter.parse t = .ok e := by
  have hread := h [] (avoids_nil _)
  rw [List.append_nil] at hread
  exact parse_eq_ok_iff.2 ⟨ss, hl, .expression (.expression hread (.stop (bindsWithin_nil 0)))⟩

/-- Wherever a term stands, it is an operand. -/
theorem IsTerm.isOperand {t : String} {e : Filter} (h : IsTerm t e) :
    ∃ ss, Lexes t.toList ss ∧ IsOperand ss e := by
  obtain ⟨ss, g, hss, hg⟩ := h.unary
  obtain ⟨f, hf, -⟩ := hg.reads
  obtain rfl : f = e := Except.ok.inj ((parse_of_isOperand hss hf).symm.trans h.parse)
  exact ⟨ss, hss, hf⟩

theorem lexes_word {w : String} (h : Token.isSymbol w = true) : Lexes w.toList [⟨.symbol, w⟩] := by
  simpa using Token.lexes_single (Token.isSymbol_iff.1 h)

theorem isTerm_word {w : String} (h : Token.isSymbol w = true) : IsTerm w (leaf (.keyword w)) where
  unary := ⟨_, _, lexes_word h, .symbol rfl⟩
  parse := parse_of_isOperand (lexes_word h) fun _ _ => .symbol rfl

theorem IsTerm.not {t : String} {e : Filter} (h : IsTerm t e) : IsTerm ("NOT " ++ t) (not e) := by
  have hnot {ss : List Shape} (hss : Lexes t.toList ss) : Lexes ("NOT " ++ t).toList (⟨.not, "NOT"⟩ :: ss) := by
    simpa using Lexes.sign (show (.not, "NOT") ∈ Token.signs by simp [Token.signs]) hss.space
  obtain ⟨ss, g, hss, hg⟩ := h.unary
  obtain ⟨us, hus, hop⟩ := h.isOperand
  refine ⟨⟨_, _, hnot hss, .not rfl hg⟩, parse_of_isOperand (hnot hus) fun rest hs => ?_⟩
  exact .not rfl (.expression (hop rest hs) (.stop (bindsWithin_three rest)))

/-! ## Links between terms -/

/-- The text may stand between two conjuncts, and a conjunct behind it clings if its tokens say so. -/
structure IsLink (link : String) (clings : List Shape → Bool) : Prop where
  space : ∃ cs, link.toList = ' ' :: cs
  isTail {cs : List Char} {us ts : List Shape} {f : Filter} {xs : List Term} :
    Lexes cs (us ++ ts) → IsOperand us f → IsTail ts xs →
    ∃ ts', Lexes (link.toList ++ cs) ts' ∧ IsTail ts' (⟨clings us, f⟩ :: xs)

theorem isLink_space : IsLink " " opensWithNot where
  space := ⟨_, rfl⟩
  isTail {cs us ts f xs} hcs hf hts := by
    obtain ⟨s, us, rfl⟩ := List.exists_cons_of_ne_nil hf.ne_nil
    exact ⟨_, hcs.space, .bare hf hts⟩

theorem lexes_and : Lexes "AND".toList [⟨.and, "AND"⟩] := by
  have h : Token.firstMatch? "AND".toList = some (.and, "AND".toList.length) := by decide
  simpa using Token.lexes_single h

theorem isLink_and : IsLink " AND " fun _ => false where
  space := ⟨_, rfl⟩
  isTail {cs us ts f xs} hcs hf hts := by
    refine ⟨⟨.and, "AND"⟩ :: (us ++ ts), ?_, .signed rfl hf hts⟩
    simpa using (lexes_and.append_space hcs).space

section Row

variable {link : String} {clings : List Shape → Bool} (hlink : IsLink link clings)
include hlink

/-- Terms with links between them are a row of conjuncts. -/
theorem IsLink.exists_row {t : String} {e : Filter} {ts : List String} {es : List Filter} (h : IsTerm t e)
    (hs : List.Forall₂ IsTerm ts es) : ∃ us vs xs, Lexes (link.intercalate (t :: ts)).toList (us ++ vs) ∧
      Lexes t.toList us ∧ IsOperand us e ∧ IsTail vs xs ∧ xs.map Term.value = es ∧
        List.Forall₂ (fun t x => ∃ ss, Lexes t.toList ss ∧ x.clings = clings ss) ts xs := by
  induction hs generalizing t e with
  | nil =>
    obtain ⟨us, hus, hop⟩ := h.isOperand
    exact ⟨us, [], [], by simpa using hus, hus, hop, .nil, rfl, .nil⟩
  | @cons t' e' ts es h' _ ih =>
    obtain ⟨us, hus, hop⟩ := h.isOperand
    obtain ⟨us', vs, xs, hlexes, hus', hop', htail, rfl, hclings⟩ := ih h'
    obtain ⟨ts', hts', htail'⟩ := hlink.isTail hlexes hop' htail
    obtain ⟨cs, hspace⟩ := hlink.space
    have hhead : ∀ c ∈ (link.toList ++ (link.intercalate (t' :: ts)).toList).head?,
        Token.prolongs c = false := by
      simpa [hspace] using Token.prolongs_blank Token.isBlank_space
    refine ⟨us, ts', _, ?_, hus, hop, htail', rfl, .cons ⟨us', hus', rfl⟩ hclings⟩
    rw [String.intercalate_cons_cons, String.toList_append, String.toList_append, List.append_assoc]
    exact hus.append hts' hhead

/-- The whole text is read as the row. -/
theorem IsLink.parse_row {t : String} {e : Filter} {ts : List String} {es : List Filter} (h : IsTerm t e)
    (hs : List.Forall₂ IsTerm ts es) : ∃ xs, parse (link.intercalate (t :: ts)) = .ok (conjoin e xs) ∧
      xs.map Term.value = es ∧ List.Forall₂ (fun t x => ∃ ss, Lexes t.toList ss ∧ x.clings = clings ss) ts xs := by
  obtain ⟨us, vs, xs, hlexes, -, hop, htail, hvalues, hclings⟩ := hlink.exists_row h hs
  have hread : Reads (.expression 0) (us ++ (vs ++ [])) (conjoin e xs) [] :=
    htail.reads_conjoin (avoids_nil _) (bindsWithin_nil 1) hop (Nat.zero_le 1) (.stop (bindsWithin_nil 0))
  rw [List.append_nil] at hread
  exact ⟨xs, parse_eq_ok_iff.2 ⟨_, hlexes, .expression hread⟩, hvalues, hclings⟩

end Row

/-- Nothing clings exactly if the tokens of no term say so. -/
theorem forall_clings_iff {clings : List Shape → Bool} {ts : List String} {xs : List Term}
    (h : List.Forall₂ (fun t x => ∃ ss, Lexes t.toList ss ∧ x.clings = clings ss) ts xs) :
    (∀ x ∈ xs, x.clings = false) ↔ ∀ t ∈ ts, ∀ ss, Lexes t.toList ss → clings ss = false := by
  induction h with
  | nil => simp
  | cons ht _ ih =>
    obtain ⟨ss, hss, hclings⟩ := ht
    rw [List.forall_mem_cons, List.forall_mem_cons, ih, hclings]
    refine and_congr_left' ⟨fun hs ss' hss' => ?_, fun hs => hs ss hss⟩
    rwa [hss'.unique hss]

theorem not_opensWithNot_iff {t : String} :
    ¬ OpensWithNot t ↔ ∀ ss, Lexes t.toList ss → opensWithNot ss = false := by
  simp [OpensWithNot]

/-- Terms with `AND` between them are read as the conjunction grouped to the left. With spaces between
them they are read as a filter of the same conjuncts, and the groups are those to the left exactly if
no term behind the first two opens with a negation. -/
theorem parse_intercalate {ts : List String} {es : List Filter} (h : List.Forall₂ IsTerm ts es) (hne : ts ≠ []) :
    parse (" AND ".intercalate ts) = .ok (joined es) ∧
      (∃ f, parse (" ".intercalate ts) = .ok f ∧ f.conjuncts = (joined es).conjuncts) ∧
      (parse (" ".intercalate ts) = .ok (joined es) ↔ ∀ t ∈ ts.drop 2, ¬ OpensWithNot t) := by
  cases h with
  | nil => exact absurd rfl hne
  | @cons t e ts es ht hs =>
    obtain ⟨ys, hand, rfl, hsigned⟩ := isLink_and.parse_row ht hs
    obtain ⟨xs, hspace, hvalues, hbare⟩ := isLink_space.parse_row ht hs
    have hclings := (forall_clings_iff hsigned).2 fun _ _ _ _ => rfl
    refine ⟨?_, ⟨_, hspace, ?_⟩, ?_⟩
    · rw [hand, (conjoin_eq_joined_iff e ys).2 fun y hy => hclings y (List.mem_of_mem_tail hy)]
    · rw [conjuncts_conjoin_eq_joined, hvalues]
    · simp only [hspace, Except.ok.injEq, ← hvalues, conjoin_eq_joined_iff, not_opensWithNot_iff]
      rw [← List.drop_one, forall_clings_iff (List.forall₂_drop 1 hbare)]
      rfl

/-- A word, the negation of another and a third. -/
theorem parse_intercalate_words :
    parse "a AND NOT b AND c" = parse "a NOT b c" ∧
      parse "a NOT b c" = .ok (and (and (leaf (.keyword "a")) (not (leaf (.keyword "b")))) (leaf (.keyword "c"))) := by
  have ha : IsTerm "a" _ := isTerm_word (by decide +kernel)
  have hb : IsTerm "b" _ := isTerm_word (by decide +kernel)
  have hc : IsTerm "c" _ := isTerm_word (by decide +kernel)
  obtain ⟨hand, -, hspace⟩ := parse_intercalate (.cons ha (.cons hb.not (.cons hc .nil))) (List.cons_ne_nil _ _)
  have hopens : ∀ t ∈ ["c"], ¬ OpensWithNot t := by
    simp only [List.mem_singleton, forall_eq, not_opensWithNot_iff]
    intro ss hss
    rw [hss.unique (lexes_word (by decide +kernel))]
    rfl
  have hbare := hspace.2 hopens
  exact ⟨hand.trans hbare.symm, hbare⟩

/-- A negation behind two words clings to the second. -/
theorem exists_parse_intercalate_ne : ∃ ts es, List.Forall₂ IsTerm ts es ∧ ts ≠ [] ∧
    parse (" ".intercalate ts) ≠ .ok (joined es) := by
  have ha : IsTerm "a" _ := isTerm_word (by decide +kernel)
  have hb : IsTerm "b" _ := isTerm_word (by decide +kernel)
  have hc : IsTerm "c" _ := isTerm_word (by decide +kernel)
  refine ⟨["a", "b", "NOT c"], _, .cons ha (.cons hb (.cons hc.not .nil)), List.cons_ne_nil _ _, fun h => ?_⟩
  exact absurd (congrArg Except.toOption h) (by decide +kernel)

end IssueQuery.Filter
