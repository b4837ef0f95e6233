/-
The parser accepts exactly the grammar. Read from the parser to the grammar, the proof follows the
steps of the parser; read the other way, it turns derivations into rows of conjuncts first, since
these are what the parser groups.
-/
import IssueQuery.Proofs.Filter.Grouping

namespace IssueQuery.Filter

open Token (Shape)

/-! ## From the parser to the grammar -/

/-- The phrase that an expression of a level is. -/
def phraseAt : Nat → Phrase
  | 0 => .disjunction
  | 1 | 2 => .conjunction
  | _ => .unary

theorem Derives.at {us : List Shape} {f : Filter} (h : Derives .unary us f) : ∀ level, Derives (phraseAt level) us f
  | 0 => .conjunction (.operand h)
  | 1 | 2 => .operand h
  | _ + 3 => h

/-- One conjunction after another, with a sign between them or without. -/
theorem Derives.append {phrase : Phrase} {ls us sign : List Shape} {f g : Filter} (h : Derives .conjunction ls f)
    (hsign : sign = [] ∨ ∃ s : Shape, sign = [s] ∧ s.kind = .and) (h' : Derives phrase us g)
    (hp : phrase = .conjunction) :
    ∃ e, Derives .conjunction (ls ++ (sign ++ us)) e ∧ e.conjuncts = f.conjuncts ++ g.conjuncts := by
  induction h' with
  | @operand us g hu =>
    rcases hsign with rfl | ⟨s, rfl, hs⟩
    · exact ⟨_, .juxtaposed h hu, rfl⟩
    · exact ⟨_, .and h hs hu, rfl⟩
  | @and us vs s g g' _ hs hv ih =>
    obtain ⟨e, he, hc⟩ := ih rfl
    refine ⟨.and e g', ?_, by rw [conjuncts, hc, conjuncts, List.append_assoc]⟩
    simpa using Derives.and he hs hv
  | @juxtaposed us vs g g' _ hv ih =>
    obtain ⟨e, he, hc⟩ := ih rfl
    refine ⟨.and e g', ?_, by rw [conjuncts, hc, conjuncts, List.append_assoc]⟩
    simpa using Derives.juxtaposed he hv
  | _ => cases hp

/-- What a chain has read so far goes on with a conjunction, unless a disjunction came before. -/
theorem Derives.extend {level : Nat} (hlevel : level < 3) {ls ss us sign : List Shape} {f g : Filter}
    (h : Derives (phraseAt level) ls f) (hcond : level = 0 → Derives .conjunction ls f ∨ BindsWithin 1 ss)
    (hss : ¬ BindsWithin 1 ss) (hsign : sign = [] ∨ ∃ s : Shape, sign = [s] ∧ s.kind = .and)
    (h' : Derives .conjunction us g) : ∃ e, Derives (phraseAt level) (ls ++ (sign ++ us)) e ∧
      e.conjuncts = f.conjuncts ++ g.conjuncts ∧ (level = 0 → Derives .conjunction (ls ++ (sign ++ us)) e) := by
  match level with
  | 0 =>
    -- `ss` goes on with the conjunction, so the one to the left has not ended
    obtain ⟨e, he, hc⟩ := ((hcond rfl).resolve_right hss).append hsign h' rfl
    exact ⟨e, .conjunction he, hc, fun _ => he⟩
  | 1 | 2 =>
    obtain ⟨e, he, hc⟩ := Derives.append h hsign h' rfl
    exact ⟨e, he, hc, fun h0 => by omega⟩

theorem power_le (k : Token.Kind) : k.power ≤ 3 := by cases k <;> decide

theorem one_lt_power {k : Token.Kind} (hor : k ≠ .or) (h : 0 < k.power) : 1 < k.power := by
  cases k <;> revert hor h <;> decide

/-- What the parser reads is a phrase of the grammar. A chain goes on with the phrase to its left,
which is a conjunction unless a disjunction has ended all of those. -/
theorem Reads.derives {task : Task} {ss rest : List Shape} {f : Filter} (h : Reads task ss f rest) :
    match task with
    | .operand => ∃ us g, ss = us ++ rest ∧ Derives .unary us g ∧ f.conjuncts = g.conjuncts
    | .expression level => ∃ us g, ss = us ++ rest ∧ Derives (phraseAt level) us g ∧ f.conjuncts = g.conjuncts
    | .chain level left => ∀ ls left', Derives (phraseAt level) ls left' → left.conjuncts = left'.conjuncts →
        (level = 0 → Derives .conjunction ls left' ∨ BindsWithin 1 ss) →
        ∃ us g, ss = us ++ rest ∧ Derives (phraseAt level) (ls ++ us) g ∧ f.conjuncts = g.conjuncts := by
  induction h with
  | @symbol s rest hk => exact ⟨[s], _, rfl, .symbol hk, rfl⟩
  | quoted hq => exact ⟨_, _, rfl, .quoted hq, rfl⟩
  | qualifier hk hc => exact ⟨_ :: _, _, rfl, .qualifier hk hc, rfl⟩
  | not hk _ ih =>
    obtain ⟨us, g, rfl, hg, hc⟩ := ih
    exact ⟨_ :: us, _, rfl, .not hk hg, by rw [conjuncts, hc, conjuncts]⟩
  | @brackets o c ss rest f ho _ hclose ih =>
    obtain ⟨us, g, rfl, hg, hc⟩ := ih
    exact ⟨o :: (us ++ [c]), g, by simp, .brackets ho hg hclose, hc⟩
  | @expression level _ _ _ _ _ _ _ ih1 ih2 =>
    obtain ⟨us, g, rfl, hg, hc⟩ := ih1
    obtain ⟨vs, g', rfl, hg', hc'⟩ := ih2 us g (hg.at level) hc fun _ => .inl (.operand hg)
    exact ⟨us ++ vs, g', by simp, hg', hc'⟩
  | stop hb =>
    intro ls left' hl hc _
    exact ⟨[], left', rfl, by simpa using hl, hc⟩
  | @and level left f g s ss us rest hk hlevel _ _ ih1 ih2 =>
    intro ls left' hl hc hcond
    obtain ⟨vs, e, rfl, he, hec⟩ := ih1
    have hss : ¬ BindsWithin 1 (s :: (vs ++ us)) := by simp [hk, Token.Kind.power]
    obtain ⟨d, hd, hdc, hd0⟩ := hl.extend (by omega) hcond hss (.inr ⟨s, rfl, hk⟩) he
    obtain ⟨ws, e', rfl, he', hec'⟩ := ih2 _ d hd (by rw [conjuncts, hc, hec, hdc]) fun h0 => .inl (hd0 h0)
    exact ⟨s :: (vs ++ ws), e', by simp, by simpa using he', hec'⟩
  | @or level left f g s ss us rest hk hlevel hread _ ih1 ih2 =>
    intro ls left' hl hc hcond
    -- the phrase to the left is complete, and the next conjunction stops before the sign after it
    obtain rfl : level = 0 := by omega
    obtain ⟨vs, e, rfl, he, hec⟩ := ih1
    obtain ⟨ws, e', rfl, he', hec'⟩ := ih2 (ls ++ s :: vs) (.or left' e) (.or hl hk he)
      (by rw [conjuncts, conjuncts, hc, hec]) fun _ => .inr hread.bindsWithin
    exact ⟨s :: (vs ++ ws), e', by simp, by simpa using he', hec'⟩
  | @juxtaposed level left f g s ss us rest hand hor hlt _ _ ih1 ih2 =>
    intro ls left' hl hc hcond
    obtain ⟨vs, e, hvs, he, hec⟩ := ih1
    have hle := power_le s.kind
    -- a token that goes on with the chain and is no disjunction goes on with its conjunction
    have hss : ¬ BindsWithin 1 (s :: ss) := by
      rw [bindsWithin_cons, not_le]
      exact one_lt_power hor (by omega)
    obtain ⟨d, hd, hdc, hd0⟩ := hl.extend (by omega) hcond hss (.inl rfl) he
    obtain ⟨ws, e', rfl, he', hec'⟩ := ih2 _ d hd (by rw [conjuncts, hc, hec, hdc]) fun h0 => .inl (hd0 h0)
    exact ⟨vs ++ ws, e', by simp [hvs], by simpa using he', hec'⟩

/-! ## From the grammar to the parser -/

theorem bindsWithin_three (ss : List Shape) : BindsWithin 3 ss := fun s _ => power_le s.kind

/-- The parser reads the phrase wherever it stands: a conjunction as a row of conjuncts, and a
disjunction as what the chain goes on from. -/
theorem Derives.reads {phrase : Phrase} {us : List Shape} {g : Filter} (h : Derives phrase us g) :
    match phrase with
    | .unary => ∃ f, IsOperand us f ∧ f.conjuncts = g.conjuncts
    | .conjunction => ∃ vs ts f xs, us = vs ++ ts ∧ IsOperand vs f ∧ IsTail ts xs ∧
        (conjoin f xs).conjuncts = g.conjuncts
    | .disjunction => ∃ f, f.conjuncts = g.conjuncts ∧ ∀ {ss e rest}, Settled ss → BindsWithin 1 ss →
        Reads (.chain 0 f) ss e rest → Reads (.expression 0) (us ++ ss) e rest := by
  induction h with
  | symbol hk => exact ⟨_, fun _ _ => .symbol hk, rfl⟩
  | quoted hq => exact ⟨_, fun _ _ => .quoted hq, rfl⟩
  | qualifier hk hc => exact ⟨_, fun _ hs => .qualifier hk hc hs, rfl⟩
  | not hk _ ih =>
    obtain ⟨f, hf, hc⟩ := ih
    refine ⟨.not f, fun rest hs => ?_, by rw [conjuncts, hc, conjuncts]⟩
    exact .not hk (.expression (hf rest hs) (.stop (bindsWithin_three rest)))
  | brackets ho _ hclose ih =>
    obtain ⟨f, hc, hread⟩ := ih
    refine ⟨f, fun rest _ => ?_, hc⟩
    have hb (level : Nat) := bindsWithin_close hclose level rest
    rw [List.cons_append, List.append_assoc]
    exact .brackets ho (hread (settled_of_close hclose) (hb 1) (.stop (hb 0))) hclose
  | operand _ ih =>
    obtain ⟨f, hf, hc⟩ := ih
    exact ⟨_, [], f, [], by simp, hf, .nil, hc⟩
  | @and ss us sign f g _ hk _ ih1 ih2 =>
    obtain ⟨vs, ts, f, xs, rfl, hf, hts, hc⟩ := ih1
    obtain ⟨f', hf', hc'⟩ := ih2
    refine ⟨vs, _, f, _, List.append_assoc .., hf, hts.signed_snoc hk hf', ?_⟩
    rw [conjuncts_conjoin, List.flatMap_append, ← List.append_assoc, ← conjuncts_conjoin, hc, conjuncts]
    simp [hc']
  | juxtaposed _ _ ih1 ih2 =>
    obtain ⟨vs, ts, f, xs, rfl, hf, hts, hc⟩ := ih1
    obtain ⟨f', hf', hc'⟩ := ih2
    refine ⟨vs, _, f, _, List.append_assoc .., hf, hts.bare_snoc hf', ?_⟩
    rw [conjuncts_conjoin, List.flatMap_append, ← List.append_assoc, ← conjuncts_conjoin, hc, conjuncts]
    simp [hc']
  | conjunction _ ih =>
    obtain ⟨vs, ts, f, xs, rfl, hf, hts, hc⟩ := ih
    refine ⟨conjoin f xs, hc, fun hs hb he => ?_⟩
    rw [List.append_assoc]
    exact hts.reads_conjoin hs hb hf (by omega) he
  | or _ hk _ ih1 ih2 =>
    obtain ⟨f, hc, hread⟩ := ih1
    obtain ⟨vs, ts, f', xs, rfl, hf', hts, hc'⟩ := ih2
    refine ⟨.or f (conjoin f' xs), by rw [conjuncts, hc, hc', conjuncts], fun hs hb he => ?_⟩
    have hor : Token.Kind.or.power = 1 := rfl
    rw [List.append_assoc, List.cons_append]
    refine hread (settled_of_power (by rw [hk, hor]; omega)) (bindsWithin_cons.2 (by rw [hk, hor])) ?_
    refine .or hk (by omega) ?_ he
    rw [List.append_assoc]
    exact hts.reads_conjoin hs hb hf' (by omega) (.stop hb)

/-! ## Whole texts -/

theorem ReadsWhole.unique {ss : List Shape} {f f' : Filter} (h : ReadsWhole ss f) (h' : ReadsWhole ss f') :
    f = f' := by
  cases h with
  | empty =>
    cases h' with
    | empty => rfl
    | expression h' => exact absurd rfl h'.ne_nil
  | expression h =>
    cases h' with
    | empty => exact absurd rfl h.ne_nil
    | expression h' => exact (h.unique h').1

theorem exists_isFilter_of_readsWhole {ss : List Shape} {f : Filter} (h : ReadsWhole ss f) :
    ∃ g, IsFilter ss g ∧ f.conjuncts = g.conjuncts := by
  cases h with
  | empty => exact ⟨_, .empty, rfl⟩
  | expression h =>
    obtain ⟨us, g, rfl, hg, hc⟩ := h.derives
    rw [List.append_nil]
    exact ⟨g, .disjunction hg, hc⟩

theorem exists_readsWhole_of_isFilter {ss : List Shape} {g : Filter} (h : IsFilter ss g) :
    ∃ f, ReadsWhole ss f ∧ f.conjuncts = g.conjuncts := by
  cases h with
  | empty => exact ⟨_, .empty, rfl⟩
  | disjunction h =>
    obtain ⟨f, hc, hread⟩ := h.reads
    have := hread (avoids_nil _) (bindsWithin_nil 1) (.stop (bindsWithin_nil 0))
    rw [List.append_nil] at this
    exact ⟨f, .expression this, hc⟩

/-- The parser accepts a text that can be cut into tokens exactly if these form a filter, and it
gives that filter, the groups of conjunctions apart. -/
theorem parse_iff_isFilter {s : String} {l : Token.Lexed} (h : Token.lex s = .ok l) :
    ((∃ f, parse s = .ok f) ↔ ∃ g, IsFilter l.shapes g) ∧
      ∀ f g, parse s = .ok f → IsFilter l.shapes g → f.conjuncts = g.conjuncts := by
  have hparse (f : Filter) : parse s = .ok f ↔ ReadsWhole l.shapes f := by
    rw [parse_eq_ok_iff]
    constructor
    · rintro ⟨ss, hss, hf⟩
      rwa [(Token.lexes_of_lex h).unique hss]
    · exact fun hf => ⟨_, Token.lexes_of_lex h, hf⟩
  refine ⟨⟨?_, ?_⟩, ?_⟩
  · rintro ⟨f, hf⟩
    obtain ⟨g, hg, -⟩ := exists_isFilter_of_readsWhole ((hparse f).1 hf)
    exact ⟨g, hg⟩
  · rintro ⟨g, hg⟩
    obtain ⟨f, hf, -⟩ := exists_readsWhole_of_isFilter hg
    exact ⟨f, (hparse f).2 hf⟩
  · intro f g hf hg
    obtain ⟨f', hf', hc⟩ := exists_readsWhole_of_isFilter hg
    rw [((hparse f).1 hf).unique hf', hc]

/-- A word, or the negation of a choice of labels. -/
theorem parse_choice_of_labels : ∃ f, parse "a OR -label:x;y" = .ok f ∧
    f.conjuncts = [or (leaf (.keyword "a"))
      (not (or (leaf (.named "label" (.text "x"))) (leaf (.named "label" (.text "y")))))] := by
  have hl : Token.lex "a OR -label:x;y" = .ok ⟨[⟨.symbol, "a", 0⟩, ⟨.or, "OR", 2⟩, ⟨.not, "-", 5⟩,
      ⟨.qualifier, "label:", 6⟩, ⟨.symbol, "x", 12⟩, ⟨.semicolon, ";", 13⟩, ⟨.symbol, "y", 14⟩], 15⟩ := by
    decide +kernel
  have hcontent (s : String) (hs : Text.int64? s = none) : IsContent "label" [⟨.symbol, s⟩] (.text s) :=
    .symbol (by decide) rfl hs
  have hchoice : IsChoice "label" [⟨.symbol, "x"⟩, ⟨.semicolon, ";"⟩, ⟨.symbol, "y"⟩]
      (or (leaf (.named "label" (.text "x"))) (leaf (.named "label" (.text "y")))) :=
    .or (.one (hcontent "x" (by decide))) rfl (hcontent "y" (by decide))
  have hname : Shape.name ⟨.qualifier, "label:"⟩ = "label" := by decide
  have hlabels : Derives .unary
      [⟨.not, "-"⟩, ⟨.qualifier, "label:"⟩, ⟨.symbol, "x"⟩, ⟨.semicolon, ";"⟩, ⟨.symbol, "y"⟩]
      (not (or (leaf (.named "label" (.text "x"))) (leaf (.named "label" (.text "y"))))) :=
    .not rfl (.qualifier rfl (hname ▸ hchoice))
  have hword : Derives .disjunction [⟨.symbol, "a"⟩] (leaf (.keyword "a")) :=
    .conjunction (.operand (.symbol (s := ⟨.symbol, "a"⟩) rfl))
  have hsign : (Shape.mk .or "OR").kind = .or := rfl
  have hfilter := IsFilter.disjunction (.or hword hsign (.operand hlabels))
  obtain ⟨hiff, hconj⟩ := parse_iff_isFilter hl
  obtain ⟨f, hf⟩ := hiff.2 ⟨_, hfilter⟩
  exact ⟨f, hf, hconj f _ hf hfilter⟩

end IssueQuery.Filter
