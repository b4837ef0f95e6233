/-
A text that goes on after a blank. Its tokens are there already, except that a word at the end may
become the name of a qualifier, whose colon can stand behind blanks.
-/
import IssueQuery.Proofs.Qualifier.Name

namespace IssueQuery.Token

/-- The first are the tokens that are there of the second when these are not yet all written. The
last of them may be a symbol that a colon makes a qualifier. -/
inductive Begins : List Shape → List Shape → Prop
  | nil {ss : List Shape} : Begins [] ss
  | cons {s : Shape} {ps ss : List Shape} : Begins ps ss → Begins (s :: ps) (s :: ss)
  | word {s q : Shape} {ss : List Shape} : s.kind = .symbol → q.kind = .qualifier → Begins [s] (q :: ss)

theorem Begins.eq_nil {ps : List Shape} (h : Begins ps []) : ps = [] := by
  cases h
  rfl

theorem Begins.head {p s : Shape} {ps ss : List Shape} (h : Begins (p :: ps) (s :: ss)) :
    p = s ∨ p.kind = .symbol ∧ s.kind = .qualifier := by
  cases h with
  | cons => exact .inl rfl
  | word hp hs => exact .inr ⟨hp, hs⟩

/-- Behind a token that is no qualifier the tokens are there as far as they are at all. -/
theorem Begins.of_cons {s : Shape} {ps ss : List Shape} (hk : s.kind ≠ .qualifier) (h : Begins ps (s :: ss)) :
    ps = [] ∨ ∃ qs, ps = s :: qs ∧ Begins qs ss := by
  cases h with
  | nil => exact .inl rfl
  | cons h => exact .inr ⟨_, rfl, h⟩
  | word _ hq => exact absurd hq hk

/-- Of tokens that are followed by others, not all are there, or all are and some of the others. -/
theorem Begins.of_append {ps ss us : List Shape} (hss : ∀ s ∈ ss, s.kind ≠ .qualifier) (h : Begins ps (ss ++ us)) :
    (∃ s vs, ss = ps ++ s :: vs) ∨ ∃ vs, ps = ss ++ vs ∧ Begins vs us := by
  induction ss generalizing ps with
  | nil => exact .inr ⟨ps, rfl, h⟩
  | cons s ss ih =>
    rw [List.cons_append] at h
    cases h with
    | nil => exact .inl ⟨s, ss, rfl⟩
    | cons h =>
      rcases ih (fun s hs => hss s (List.mem_cons_of_mem _ hs)) h with ⟨u, vs, rfl⟩ | ⟨vs, rfl, hvs⟩
      · exact .inl ⟨u, vs, rfl⟩
      · exact .inr ⟨vs, rfl, hvs⟩
    | word _ hq => exact absurd hq (hss s (List.mem_cons_self ..))

/-! ## Blanks in tokens -/

theorem spelling_mem {ss : List String} {cs : List Char} {n : Nat} (h : spelling ss cs = some n) :
    ∃ s ∈ ss, cs.take n = s.toList := by
  obtain ⟨s, hfind, rfl⟩ := Option.map_eq_some_iff.1 h
  have hp : s.toList <+: cs := by simpa using List.find?_some hfind
  refine ⟨s, List.mem_of_find?_eq_some hfind, ?_⟩
  rw [← String.length_toList]
  exact (List.prefix_iff_eq_take.1 hp).symm

/-- No token but a qualifier has a blank in it. -/
theorem isBlank_eq_false_of_firstMatch? {text : List Char} {kind : Kind}
    (h : firstMatch? text = some (kind, text.length)) (hk : kind ≠ .qualifier) :
    ∀ c ∈ text, Text.isBlank c = false := by
  obtain ⟨rule, hr, hn⟩ := exists_rule_of_firstMatch? h
  have hspellings : ∀ ss ∈ spellings, (ss.all fun s => s.toList.all fun c => !Text.isBlank c) = true := by
    decide
  rcases mem_rules_cases hr with heq | heq | heq | ⟨ss, hss, hrule⟩
  · cases heq
    intro c hc
    cases isDate_of_firstMatch? h with
    | mk hy hm hd =>
      have hdigit {c : Char} (h : c.isDigit = true) :=
        Text.isBlank_eq_false_of_isAlphanum (Text.isAlphanum_of_isDigit h)
      have hhyphen : Text.isBlank '-' = false := by decide
      simp only [List.mem_append, List.mem_cons] at hc
      rcases hc with hc | rfl | hc | rfl | hc
      · exact hdigit (hy.digits c hc)
      · exact hhyphen
      · exact hdigit (hm.digits c hc)
      · exact hhyphen
      · exact hdigit (hd.digits c hc)
  · cases heq
    exact absurd rfl hk
  · cases heq
    exact (isSymbol_of_firstMatch? h).isBlank_eq_false
  · obtain rfl : rule = spelling ss := hrule
    obtain ⟨s, hmem, htake⟩ := spelling_mem hn
    rw [List.take_length] at htake
    intro c hc
    simpa using List.all_eq_true.1 (List.all_eq_true.1 (hspellings ss hss) s hmem) c (htake ▸ hc)

/-! ## A qualifier cut before its colon -/

theorem IsHyphenated.ne_colon {w : List Char} (h : IsHyphenated w) : ∀ c ∈ w, c ≠ ':' := by
  rintro c hc rfl
  rcases h.mem _ hc with hc | hc
  · exact absurd hc (by decide)
  · exact absurd hc (by decide)

theorem symbolLength_hyphenated {w blanks : List Char} (hw : IsHyphenated w)
    (hb : ∀ b ∈ blanks, Text.isBlank b = true) : symbolLength (w ++ blanks) = some w.length := by
  have hcontinues : ∀ c ∈ w, continuesSymbol c = true := by
    intro c hc
    rcases hw.mem c hc with hc | rfl
    · simp [continuesSymbol, Text.isWord_of_isAlphanum (Text.isAlphanum_of_isAlpha hc)]
    · decide +kernel
  have hstop : blanks.takeWhile continuesSymbol = [] := by
    cases blanks with
    | nil => rfl
    | cons b blanks =>
      have := prolongs_blank (hb b (List.mem_cons_self ..))
      rw [prolongs, Bool.or_eq_false_iff] at this
      rw [List.takeWhile_cons_of_neg (by simp [this.1])]
  obtain ⟨c, cs, rfl⟩ := List.exists_cons_of_ne_nil hw.ne_nil
  have hstart : startsSymbol c = true := by
    simp [startsSymbol, Text.isWord_of_isAlphanum (Text.isAlphanum_of_isAlpha (hw.head c rfl))]
  rw [List.cons_append, symbolLength_cons hstart,
    List.takeWhile_append_of_pos fun d hd => hcontinues d (List.mem_cons_of_mem _ hd), hstop, List.append_nil,
    List.length_cons]

/-- Where a qualifier is cut before its colon, its name is a symbol. -/
theorem firstMatch?_of_qualifier {w blanks rest : List Char} {n : Nat} (hw : IsHyphenated w)
    (hb : ∀ b ∈ blanks, Text.isBlank b = true)
    (h : firstMatch? (w ++ blanks ++ rest) = some (.qualifier, n)) :
    firstMatch? (w ++ blanks) = some (.symbol, w.length) := by
  have hqualifier : qualifierLength (w ++ blanks) = none := by
    refine Option.eq_none_iff_forall_ne_some.2 fun m hm => ?_
    obtain ⟨w', blanks', rest', -, -, hcs⟩ := exists_of_qualifierLength hm
    have hcolon : ':' ∈ w ++ blanks := by rw [hcs]; simp
    rcases List.mem_append.1 hcolon with hc | hc
    · exact hw.ne_colon _ hc rfl
    · exact absurd (hb _ hc) (by decide)
  have hsemicolon : spelling [";"] (w ++ blanks) = none := by
    obtain ⟨c, cs, rfl⟩ := List.exists_cons_of_ne_nil hw.ne_nil
    refine semicolon_eq_none (cs ++ blanks) ?_
    rintro rfl
    exact absurd (hw.head ';' rfl) (by decide)
  have hr : rules = rules.take 4 ++ (.qualifier, qualifierLength) :: rules.drop 5 := rfl
  refine firstMatch?_eq_some_iff.2 ⟨rules.take 4 ++ [(.qualifier, qualifierLength), (.semicolon, spelling [";"])],
    symbolLength, rules.drop 7, rfl, symbolLength_hyphenated hw hb, ?_⟩
  intro r hmem
  rcases List.mem_append.1 hmem with hmem | hmem
  · exact (isLocal_of_mem_rules (List.mem_of_mem_take hmem)).eq_none (eq_none_of_firstMatch? h hr r hmem)
  · simp only [List.mem_cons, List.not_mem_nil, or_false] at hmem
    rcases hmem with rfl | rfl
    · exact hqualifier
    · exact hsemicolon

/-- What stands before a blank in a qualifier is its name, and blanks. -/
theorem IsQualifier.cut {a q : List Char} {b : Char} (h : IsQualifier (a ++ b :: q)) (hb : Text.isBlank b = true) :
    ∃ w blanks, IsHyphenated w ∧ (∀ c ∈ blanks, Text.isBlank c = true) ∧ a = w ++ blanks := by
  generalize htext : a ++ b :: q = text at h
  cases h with
  | @mk w blanks hw hblanks =>
    rcases List.append_eq_append_iff.1 htext with ⟨x, rfl, hx⟩ | ⟨x, rfl, hx⟩
    · cases x with
      | nil => exact ⟨a, [], by simpa using hw, List.forall_mem_nil _, by simp⟩
      | cons c x =>
        -- the name would have a blank in it
        obtain ⟨rfl, -⟩ := List.cons.inj hx
        rw [hw.not_blank b (by simp)] at hb
        cases hb
    · refine ⟨w, x, hw, fun c hc => hblanks c ?_, rfl⟩
      have hlen := congrArg List.length hx
      simp only [List.length_append, List.length_cons, List.length_nil] at hlen
      exact (List.prefix_of_prefix_length_le ⟨_, hx.symm⟩ ⟨_, rfl⟩ (by omega)).subset hc

/-! ## Texts that go on -/

/-- The tokens of a text that goes on after a blank begin those of the whole. -/
theorem exists_begins_of_lexes {a cs : List Char} {b : Char} {us : List Shape} (hb : Text.isBlank b = true)
    (h : Lexes (a ++ b :: cs) us) : ∃ ps, Lexes a ps ∧ Begins ps us := by
  generalize hwhole : a ++ b :: cs = whole at h
  induction h generalizing a with
  | done hblank =>
    subst hwhole
    exact ⟨[], .done fun c hc => hblank c (List.mem_append_left _ hc), .nil⟩
  | @token blanks text rest kind ss hblank hm hrest ih =>
    rcases List.append_eq_append_iff.1 hwhole with ⟨blanks', rfl, -⟩ | ⟨a', rfl, ha'⟩
    · -- the text goes on before the token begins
      exact ⟨[], .done fun c hc => hblank c (List.mem_append_left _ hc), .nil⟩
    · have hends {d : List Char} (ha : a' = text ++ d) (hr : rest = d ++ b :: cs) :
          ∃ ps, Lexes (blanks ++ a') ps ∧ Begins ps (⟨kind, String.ofList text⟩ :: ss) := by
        obtain ⟨ps, hps, hbegins⟩ := ih hr.symm
        rw [hr, ← List.append_assoc] at hm
        exact ⟨_, ha ▸ .token hblank (firstMatch?_of_append hm (by simp)) hps, .cons hbegins⟩
      rcases List.append_eq_append_iff.1 ha' with ⟨d, ha, hr⟩ | ⟨q, rfl, hq⟩
      · -- the token ends before that
        exact hends ha hr
      · cases q with
        | nil => exact hends (d := []) (by simp) (by simpa using hq.symm)
        | cons c q =>
          -- of the tokens with blanks in them, only a qualifier can be cut at one
          obtain ⟨rfl, -⟩ := List.cons.inj hq
          have htext := firstMatch?_of_append hm le_rfl
          obtain rfl : kind = .qualifier := by
            by_contra hk
            rw [isBlank_eq_false_of_firstMatch? htext hk b (by simp)] at hb
            cases hb
          obtain ⟨w, x, hw, hx, rfl⟩ := (isQualifier_of_firstMatch? htext).cut hb
          rw [List.append_assoc] at hm
          exact ⟨_, .token hblank (firstMatch?_of_qualifier hw hx hm) (.done hx), .word rfl rfl⟩

end IssueQuery.Token
