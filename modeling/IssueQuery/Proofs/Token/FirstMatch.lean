/-
The first rule that matches. It depends on the text of its token alone, and stays the first when the
text goes on but breaks there; so a token can be recognised by itself.
-/
import IssueQuery.Proofs.Token.Rules

namespace IssueQuery.Token

/-! ## The rule and the text it takes -/

theorem firstMatch?_eq_some_iff {cs : List Char} {kind : Kind} {n : Nat} :
    firstMatch? cs = some (kind, n) ↔ ∃ before rule after, rules = before ++ (kind, rule) :: after ∧
      rule cs = some n ∧ ∀ r ∈ before, r.2 cs = none := by
  unfold firstMatch?
  rw [List.findSome?_eq_some_iff]
  simp only [Option.map_eq_some_iff, Option.map_eq_none_iff]
  constructor
  · rintro ⟨before, ⟨k, rule⟩, after, hr, ⟨m, hm, heq⟩, hb⟩
    cases heq
    exact ⟨before, rule, after, hr, hm, hb⟩
  · rintro ⟨before, rule, after, hr, hn, hb⟩
    exact ⟨before, (kind, rule), after, hr, ⟨n, hn, rfl⟩, hb⟩

theorem firstMatch?_eq_none_iff {cs : List Char} : firstMatch? cs = none ↔ ∀ r ∈ rules, r.2 cs = none := by
  unfold firstMatch?
  rw [List.findSome?_eq_none_iff]
  simp only [Option.map_eq_none_iff]

theorem exists_rule_of_firstMatch? {cs : List Char} {kind : Kind} {n : Nat} (h : firstMatch? cs = some (kind, n)) :
    ∃ rule, (kind, rule) ∈ rules ∧ rule cs = some n := by
  obtain ⟨before, rule, after, hr, hn, -⟩ := firstMatch?_eq_some_iff.1 h
  exact ⟨rule, by simp [hr], hn⟩

/-- No rule before the one that matches takes anything. -/
theorem eq_none_of_firstMatch? {cs : List Char} {kind : Kind} {n : Nat} (h : firstMatch? cs = some (kind, n))
    {before after : List (Kind × Rule)} {rule : Rule} (hr : rules = before ++ (kind, rule) :: after) :
    ∀ r ∈ before, r.2 cs = none := by
  obtain ⟨before', rule', after', hr', -, hnone⟩ := firstMatch?_eq_some_iff.1 h
  -- a kind has one place among the rules
  have hnodup : (rules.map Prod.fst).Nodup := by decide
  have hplace {before after : List (Kind × Rule)} {rule : Rule}
      (hr : rules = before ++ (kind, rule) :: after) : before = rules.take ((rules.map Prod.fst).idxOf kind) := by
    have hnot : kind ∉ before.map Prod.fst := by
      rw [hr, List.map_append, List.map_cons] at hnodup
      intro hmem
      exact (List.nodup_append.1 hnodup).2.2 kind hmem kind (List.mem_cons_self ..) rfl
    rw [hr, List.map_append, List.idxOf_append_of_notMem hnot, List.map_cons, List.idxOf_cons_self, Nat.add_zero,
      List.length_map, List.take_left]
  rw [hplace hr, ← hplace hr']
  exact hnone

/-- A token of a kind that has one class of texts belongs to it. -/
theorem mem_of_firstMatch? {text : List Char} {kind : Kind} {rule : Rule} {L : List Char → Prop}
    (h : firstMatch? text = some (kind, text.length)) (hkind : ∀ r, (kind, r) ∈ rules → r = rule)
    (hL : TakesLongest rule L) : L text := by
  obtain ⟨r, hr, hn⟩ := exists_rule_of_firstMatch? h
  obtain rfl := hkind r hr
  have := hL.taken hn
  rwa [List.take_length] at this

theorem isDate_of_firstMatch? {text : List Char} (h : firstMatch? text = some (.date, text.length)) : IsDate text :=
  mem_of_firstMatch? h (by simp [rules]) takesLongest_dateLength

theorem isQualifier_of_firstMatch? {text : List Char} (h : firstMatch? text = some (.qualifier, text.length)) :
    IsQualifier text :=
  mem_of_firstMatch? h (by simp [rules]) takesLongest_qualifierLength

theorem isSymbol_of_firstMatch? {text : List Char} (h : firstMatch? text = some (.symbol, text.length)) :
    IsSymbol text :=
  mem_of_firstMatch? h (by simp [rules]) takesLongest_symbolLength

theorem length_le_of_firstMatch? {cs : List Char} {kind : Kind} {n : Nat}
    (h : firstMatch? cs = some (kind, n)) : n ≤ cs.length := by
  obtain ⟨rule, hr, hn⟩ := exists_rule_of_firstMatch? h
  exact (isLocal_of_mem_rules hr).le_length hn

/-- What a rule takes does not depend on the characters after it. -/
theorem firstMatch?_of_append {a b : List Char} {kind : Kind} {n : Nat}
    (h : firstMatch? (a ++ b) = some (kind, n)) (hn : n ≤ a.length) : firstMatch? a = some (kind, n) := by
  obtain ⟨before, rule, after, hr, hrule, hb⟩ := firstMatch?_eq_some_iff.1 h
  refine firstMatch?_eq_some_iff.2 ⟨before, rule, after, hr, ?_, fun r hmem => ?_⟩
  · have hle (m : Nat) (hm : rule (a ++ b) = some m) : m ≤ a.length := by
      rw [hrule] at hm
      cases hm
      exact hn
    exact ((isLocal_of_mem_rules (r := (kind, rule)) (by simp [hr])).of_append hle).trans hrule
  · exact (isLocal_of_mem_rules (r := r) (by simp [hr, hmem])).eq_none (hb r hmem)

theorem firstMatch?_append {a b : List Char} (ha : a ≠ []) (hb : Breaks b) :
    firstMatch? (a ++ b) = firstMatch? a := by
  have hrules : ∀ r ∈ rules, r.2 (a ++ b) = r.2 a := fun r hr => (isLocal_of_mem_rules hr).append_eq ha hb
  ext ⟨kind, n⟩
  rw [firstMatch?_eq_some_iff, firstMatch?_eq_some_iff]
  constructor
  · rintro ⟨before, rule, after, hr, hn, hnone⟩
    refine ⟨before, rule, after, hr, ?_, fun r hmem => ?_⟩
    · exact (hrules (kind, rule) (by simp [hr])).symm.trans hn
    · exact (hrules r (by simp [hr, hmem])).symm.trans (hnone r hmem)
  · rintro ⟨before, rule, after, hr, hn, hnone⟩
    refine ⟨before, rule, after, hr, ?_, fun r hmem => ?_⟩
    · exact (hrules (kind, rule) (by simp [hr])).trans hn
    · exact (hrules r (by simp [hr, hmem])).trans (hnone r hmem)

/-! ## What begins a token -/

theorem dateLength_eq_none {c : Char} {cs : List Char} (hc : c.isDigit = false) : dateLength (c :: cs) = none := by
  refine Option.eq_none_iff_forall_ne_some.2 fun n h => ?_
  obtain ⟨y, m, rest, hy, -, hcs⟩ := exists_of_dateLength h
  cases y with
  | nil => exact absurd hy.least (by decide)
  | cons d y =>
    cases hcs
    rw [hy.digits c (by simp)] at hc
    cases hc

theorem qualifierLength_eq_none {c : Char} {cs : List Char} (hc : c.isAlpha = false) :
    qualifierLength (c :: cs) = none := by
  unfold qualifierLength
  rw [hyphenatedLength_eq_zero (by simpa using hc)]

theorem spelling_eq_none {ss : List String} {c : Char} {cs : List Char} (hne : "" ∉ ss)
    (h : ∀ s ∈ ss, c ∉ s.toList.head?) : spelling ss (c :: cs) = none := by
  refine Option.map_eq_none_iff.2 (List.find?_eq_none.2 fun s hs hp => ?_)
  rw [List.isPrefixOf_iff_prefix] at hp
  cases hl : s.toList with
  | nil => exact hne (String.toList_eq_nil_iff.1 hl ▸ hs)
  | cons d ds =>
    rw [hl, List.cons_prefix_cons] at hp
    exact h s hs (by rw [hl, hp.1]; rfl)

theorem isAlphanum_eq_false {c : Char} (hc : startsSymbol c = false) : c.isAlphanum = false := by
  by_contra h
  simp [startsSymbol, Text.isWord_of_isAlphanum (by simpa using h)] at hc

/-- The rules for dates, qualifiers and symbols need a word character or a number sign. -/
theorem firstMatch?_of_startsSymbol_eq_false {c : Char} (cs : List Char) (hc : startsSymbol c = false) :
    dateLength (c :: cs) = none ∧ qualifierLength (c :: cs) = none ∧ symbolLength (c :: cs) = none := by
  have h := isAlphanum_eq_false hc
  rw [Char.isAlphanum, Bool.or_eq_false_iff] at h
  exact ⟨dateLength_eq_none h.2, qualifierLength_eq_none h.1, symbolLength_eq_none (by simpa using hc)⟩

theorem firstMatch?_eq_none {c : Char} (cs : List Char) (hc : startsSymbol c = false)
    (hs : c ∉ "AON&|~!-;()\",%.<>*".toList) : firstMatch? (c :: cs) = none := by
  obtain ⟨h1, h2, h3⟩ := firstMatch?_of_startsSymbol_eq_false cs hc
  have hheads : ∀ ss ∈ spellings, "" ∉ ss ∧
      ∀ s ∈ ss, s.toList.head?.toList ⊆ "AON&|~!-;()\",%.<>*".toList := by decide
  rw [firstMatch?_eq_none_iff]
  intro r hmem
  rcases mem_rules_cases hmem with rfl | rfl | rfl | ⟨ss, hss, hrule⟩
  · exact h1
  · exact h2
  · exact h3
  · obtain ⟨hne, hhead⟩ := hheads ss hss
    rw [hrule]
    exact spelling_eq_none hne fun s hmem hc => hs (hhead s hmem (by simpa using hc))

/-! ## Signs -/

/-- The tokens that are what they are whatever follows them. -/
def signs : List (Kind × String) :=
  [(.or, "OR"), (.not, "NOT"), (.not, "~"), (.openBracket, "("), (.closeBracket, ")"), (.quote, "\""),
    (.comma, ","), (.dots, ".."), (.atMost, "<="), (.atLeast, ">=")]

theorem firstMatch?_sign {kind : Kind} {s : String} (h : (kind, s) ∈ signs) (cs : List Char) :
    firstMatch? (s.toList ++ cs) = some (kind, s.toList.length) := by
  simp only [signs, List.mem_cons, List.not_mem_nil, or_false, Prod.mk.injEq] at h
  -- the letters of `OR` and `NOT` could start a symbol, but their own rules come first
  rcases h with ⟨rfl, rfl⟩ | ⟨rfl, rfl⟩ | h
  · simp [firstMatch?, rules, spelling]; rfl
  · simp [firstMatch?, rules, spelling]; rfl
  · obtain ⟨c, rest, hs, hc⟩ : ∃ c rest, s.toList = c :: rest ∧ startsSymbol c = false := by
      rcases h with ⟨-, rfl⟩ | ⟨-, rfl⟩ | ⟨-, rfl⟩ | ⟨-, rfl⟩ | ⟨-, rfl⟩ | ⟨-, rfl⟩ | ⟨-, rfl⟩ | ⟨-, rfl⟩
      all_goals exact ⟨_, _, rfl, by decide +kernel⟩
    obtain ⟨h1, h2, h3⟩ := firstMatch?_of_startsSymbol_eq_false (rest ++ cs) hc
    rw [← List.cons_append, ← hs] at h1 h2 h3
    rcases h with ⟨rfl, rfl⟩ | ⟨rfl, rfl⟩ | ⟨rfl, rfl⟩ | ⟨rfl, rfl⟩ | ⟨rfl, rfl⟩ | ⟨rfl, rfl⟩ | ⟨rfl, rfl⟩ | ⟨rfl, rfl⟩
    all_goals
      simp only [firstMatch?, rules, List.findSome?_cons, h1, h2, h3]
      simp [spelling]
      rfl

/-- The tokens that are what they are unless an equals sign follows them. -/
def strictSigns : List (Kind × String) := [(.above, ">"), (.below, "<")]

theorem firstMatch?_strictSign {kind : Kind} {s : String} (h : (kind, s) ∈ strictSigns) {c : Char} (hc : c ≠ '=')
    (cs : List Char) : firstMatch? (s.toList ++ c :: cs) = some (kind, s.toList.length) := by
  simp only [strictSigns, List.mem_cons, List.not_mem_nil, or_false, Prod.mk.injEq] at h
  rcases h with ⟨rfl, rfl⟩ | ⟨rfl, rfl⟩
  · obtain ⟨h1, h2, h3⟩ := firstMatch?_of_startsSymbol_eq_false (c := '>') (c :: cs) (by decide +kernel)
    simp only [firstMatch?, rules, List.findSome?_cons, String.reduceToList, List.singleton_append, h1, h2, h3]
    simp [spelling, hc.symm]
    rfl
  · obtain ⟨h1, h2, h3⟩ := firstMatch?_of_startsSymbol_eq_false (c := '<') (c :: cs) (by decide +kernel)
    simp only [firstMatch?, rules, List.findSome?_cons, String.reduceToList, List.singleton_append, h1, h2, h3]
    simp [spelling, hc.symm]
    rfl

/-! ## Words -/

section Words

variable {c : Char} {cs : List Char}

theorem connectives_eq_none (cs : List Char) (hc : c ∉ "AON&|~!-".toList) :
    spelling ["AND", "&&", "&"] (c :: cs) = none ∧ spelling ["OR", "||", "|"] (c :: cs) = none ∧
      spelling ["NOT", "~", "!", "-"] (c :: cs) = none := by
  have hnone {ss : List String} (hne : "" ∉ ss) (h : ∀ s ∈ ss, s.toList.head?.toList ⊆ "AON&|~!-".toList) :
      spelling ss (c :: cs) = none :=
    spelling_eq_none hne fun s hmem hd => hc (h s hmem (by simpa using hd))
  exact ⟨hnone (by decide) (by decide), hnone (by decide) (by decide), hnone (by decide) (by decide)⟩

theorem semicolon_eq_none (cs : List Char) (hc : c ≠ ';') : spelling [";"] (c :: cs) = none := by
  refine spelling_eq_none (by decide) fun s hs hd => hc ?_
  rw [List.mem_singleton.1 hs] at hd
  simpa using hd.symm

theorem firstMatch?_date (hc : c ∉ "AON&|~!-".toList) {n : Nat} (h : dateLength (c :: cs) = some n) :
    firstMatch? (c :: cs) = some (.date, n) := by
  obtain ⟨h1, h2, h3⟩ := connectives_eq_none cs hc
  simp only [firstMatch?, rules, List.findSome?_cons, h1, h2, h3, h, Option.map_none, Option.map_some]

theorem firstMatch?_qualifier (hc : c ∉ "AON&|~!-".toList) (hd : dateLength (c :: cs) = none) {n : Nat}
    (h : qualifierLength (c :: cs) = some n) : firstMatch? (c :: cs) = some (.qualifier, n) := by
  obtain ⟨h1, h2, h3⟩ := connectives_eq_none cs hc
  simp only [firstMatch?, rules, List.findSome?_cons, h1, h2, h3, hd, h, Option.map_none, Option.map_some]

theorem firstMatch?_symbol (hc : c ∉ "AON&|~!-;".toList) (hd : dateLength (c :: cs) = none)
    (hq : qualifierLength (c :: cs) = none) {n : Nat} (h : symbolLength (c :: cs) = some n) :
    firstMatch? (c :: cs) = some (.symbol, n) := by
  obtain ⟨h1, h2, h3⟩ := connectives_eq_none cs fun hm => hc (by simp at hm ⊢; tauto)
  have h4 : spelling [";"] (c :: cs) = none := semicolon_eq_none cs fun heq => hc (heq ▸ by decide)
  simp only [firstMatch?, rules, List.findSome?_cons, h1, h2, h3, h4, hd, hq, h, Option.map_none, Option.map_some]

end Words

end IssueQuery.Token
