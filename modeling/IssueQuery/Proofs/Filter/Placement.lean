/-
Where tokens may stand, as an automaton that knows of each token only its kind. It lets all texts pass
that are read, but no text of a filter with a keyword that has no text to search for.
-/
import IssueQuery.Proofs.Filter.Spelling
import IssueQuery.Proofs.Filter.Bare

namespace IssueQuery.Filter

open Token (Shape Kind)
open Qualifier (Content)

/-! ## Places -/

/-- What the tokens so far leave to be read: terms, the content of a qualifier, more of a content that
could end here, or more words of a phrase between quotes. -/
inductive Place
  | terms | content | value | quoted
  deriving DecidableEq

namespace Place

/-- The place behind a token, if it may stand here. -/
def step : Place → Kind → Option Place
  | quoted, .symbol | quoted, .date => some quoted
  | quoted, .quote => some value
  | quoted, _ => none
  | content, .symbol | content, .date | content, .star => some value
  | content, .quote => some quoted
  | content, .not | content, .above | content, .atLeast | content, .below | content, .atMost => some content
  | content, _ => none
  | value, .semicolon | value, .comma | value, .dots => some content
  | _, .qualifier => some content
  | _, .quote => some quoted
  | _, .symbol | _, .and | _, .or | _, .not | _, .openBracket | _, .closeBracket => some terms
  | _, _ => none

/-- The place behind the tokens. -/
def run (p : Place) (ss : List Shape) : Option Place := ss.foldlM (fun p s => p.step s.kind) p

/-- Whether a term may end or begin here. -/
def IsBetween (p : Place) : Prop := p = terms ∨ p = value

@[simp] theorem run_nil (p : Place) : p.run [] = some p := rfl

@[simp] theorem run_cons (p : Place) (s : Shape) (ss : List Shape) :
    p.run (s :: ss) = (p.step s.kind).bind fun p => p.run ss := rfl

@[simp] theorem run_append (p : Place) (ss us : List Shape) : p.run (ss ++ us) = (p.run ss).bind fun p => p.run us := by
  unfold run
  rw [List.foldlM_append]
  rfl

/-- The kinds of the tokens that may stand between terms, and leave more terms to be read. -/
def joints : List Kind := [.symbol, .and, .or, .not, .openBracket, .closeBracket]

theorem IsBetween.step_joint {p : Place} (h : p.IsBetween) {k : Kind} (hk : k ∈ joints) : p.step k = some terms := by
  rcases h with rfl | rfl <;> revert k <;> decide

theorem IsBetween.step_qualifier {p : Place} (h : p.IsBetween) : p.step .qualifier = some content := by
  rcases h with rfl | rfl <;> rfl

theorem IsBetween.step_quote {p : Place} (h : p.IsBetween) : p.step .quote = some quoted := by
  rcases h with rfl | rfl <;> rfl

theorem isBetween_terms : IsBetween terms := .inl rfl

theorem isBetween_value : IsBetween value := .inr rfl

end Place

/-! ## Texts that are read -/

theorem run_words {words : List Shape} (h : ∀ w ∈ words, w.kind = .symbol ∨ w.kind = .date) :
    Place.quoted.run words = some .quoted := by
  induction words with
  | nil => rfl
  | cons w ws ih =>
    have hw : Place.quoted.step w.kind = some .quoted := by
      rcases h w (List.mem_cons_self ..) with hk | hk <;> rw [hk] <;> rfl
    rw [Place.run_cons, hw, Option.bind_some, ih fun w hw => h w (List.mem_cons_of_mem _ hw)]

/-- A phrase may stand where a quote may. -/
theorem IsQuoted.run {ss : List Shape} {s : String} (h : IsQuoted ss s) {p : Place}
    (hp : p.step .quote = some .quoted) : p.run ss = some .value := by
  cases h with
  | mk ho hw hc =>
    rw [Place.run_cons, ho, hp, Option.bind_some, Place.run_append, run_words hw, Option.bind_some, Place.run_cons, hc]
    rfl

theorem IsKeys.run {ss : List Shape} {ks : List SortKey} (h : IsKeys ss ks) : Place.content.run ss = some .value := by
  have hkey {ss : List Shape} {k : SortKey} (h : IsKey ss k) : Place.content.run ss = some .value := by
    cases h with
    | plain hk => rw [Place.run_cons, hk]; rfl
    | reversed hn hk => rw [Place.run_cons, hn, Place.step, Option.bind_some, Place.run_cons, hk]; rfl
  induction h with
  | one hk => exact hkey hk
  | cons hk hc _ ih =>
    rw [Place.run_append, hkey hk, Option.bind_some, Place.run_cons, hc, Place.step, Option.bind_some, ih]

theorem IsSpan.run {α : Type} {value? : Shape → Option α} {one : α → Content} {range : Range α → Content}
    {ss : List Shape} {c : Content} {k : Kind} (hk : k = .symbol ∨ k = .date)
    (hv : ∀ s a, value? s = some a → s.kind = k) (h : IsSpan value? one range ss c) :
    Place.content.run ss = some .value := by
  rcases hk with rfl | rfl
  all_goals
    cases h with
    | one ha => simp only [Place.run_cons, hv _ _ ha]; rfl
    | between ha hd hb => simp only [Place.run_cons, hv _ _ ha, hd, hv _ _ hb]; rfl
    | onwards ha hd hs => simp only [Place.run_cons, hv _ _ ha, hd, hs]; rfl
    | above hs ha => simp only [Place.run_cons, hs, hv _ _ ha]; rfl
    | atLeast hs ha => simp only [Place.run_cons, hs, hv _ _ ha]; rfl
    | below hs ha => simp only [Place.run_cons, hs, hv _ _ ha]; rfl
    | atMost hs ha => simp only [Place.run_cons, hs, hv _ _ ha]; rfl

theorem IsContent.run {name : String} {ss : List Shape} {c : Content} (h : IsContent name ss c) :
    Place.content.run ss = some .value := by
  cases h with
  | sortKeys _ hkeys => exact hkeys.run
  | dates _ hdates => exact hdates.run (.inr rfl) fun s d hd => kind_of_date? hd
  | numbers _ hnumbers => exact hnumbers.run (.inl rfl) fun s n hn => kind_of_number? hn
  | quoted _ hquoted => exact hquoted.run rfl
  | symbol _ hk => rw [Place.run_cons, hk]; rfl

theorem IsChoice.run {name : String} {ss : List Shape} {f : Filter} (h : IsChoice name ss f) :
    Place.content.run ss = some .value := by
  induction h with
  | one hc => exact hc.run
  | or _ hs hc ih =>
    rw [Place.run_append, ih, Option.bind_some, Place.run_cons, hs, Place.step, Option.bind_some, hc.run]

/-- The automaton lets a phrase of the grammar pass. -/
theorem Derives.exists_run {phrase : Phrase} {ss : List Shape} {f : Filter} (h : Derives phrase ss f) {p : Place}
    (hp : p.IsBetween) : ∃ p', p.run ss = some p' ∧ p'.IsBetween := by
  induction h generalizing p with
  | symbol hk => exact ⟨.terms, by rw [Place.run_cons, hk, hp.step_joint (by decide)]; rfl, Place.isBetween_terms⟩
  | quoted hq => exact ⟨.value, hq.run hp.step_quote, Place.isBetween_value⟩
  | qualifier hk hc =>
    refine ⟨.value, ?_, Place.isBetween_value⟩
    rw [Place.run_cons, hk, hp.step_qualifier, Option.bind_some, hc.run]
  | not hk _ ih =>
    rw [Place.run_cons, hk, hp.step_joint (by decide), Option.bind_some]
    exact ih Place.isBetween_terms
  | brackets ho _ hc ih =>
    obtain ⟨p', hrun, hp'⟩ := ih Place.isBetween_terms
    refine ⟨.terms, ?_, Place.isBetween_terms⟩
    rw [Place.run_cons, ho, hp.step_joint (by decide), Option.bind_some, Place.run_append, hrun, Option.bind_some,
      Place.run_cons, hc, hp'.step_joint (by decide)]
    rfl
  | operand _ ih => exact ih hp
  | and _ hs _ ih1 ih2 =>
    obtain ⟨p', hrun, hp'⟩ := ih1 hp
    rw [Place.run_append, hrun, Option.bind_some, Place.run_cons, hs, hp'.step_joint (by decide), Option.bind_some]
    exact ih2 Place.isBetween_terms
  | juxtaposed _ _ ih1 ih2 =>
    obtain ⟨p', hrun, hp'⟩ := ih1 hp
    rw [Place.run_append, hrun, Option.bind_some]
    exact ih2 hp'
  | conjunction _ ih => exact ih hp
  | or _ hs _ ih1 ih2 =>
    obtain ⟨p', hrun, hp'⟩ := ih1 hp
    rw [Place.run_append, hrun, Option.bind_some, Place.run_cons, hs, hp'.step_joint (by decide), Option.bind_some]
    exact ih2 Place.isBetween_terms

/-! ## Texts of filters -/

/-- A range is stopped where a term would begin, and so is a date. -/
theorem IsSpan.run_eq_none {α : Type} {value? : Shape → Option α} {one : α → Content} {range : Range α → Content}
    {ss : List Shape} {c : Content} {k : Kind} (hk : k = .symbol ∨ k = .date)
    (hv : ∀ s a, value? s = some a → s.kind = k) (h : IsSpan value? one range ss c)
    (hone : k = .symbol → ∀ a, c ≠ one a) {p : Place} (hp : p.IsBetween) : p.run ss = none := by
  rcases hp with rfl | rfl <;> rcases hk with rfl | rfl
  all_goals
    cases h with
    | one ha => first | exact absurd rfl (hone rfl _) | simp only [Place.run_cons, hv _ _ ha]; rfl
    | between ha hd => simp only [Place.run_cons, hv _ _ ha, hd]; rfl
    | onwards ha hd => simp only [Place.run_cons, hv _ _ ha, hd]; rfl
    | above hs => simp only [Place.run_cons, hs]; rfl
    | atLeast hs => simp only [Place.run_cons, hs]; rfl
    | below hs => simp only [Place.run_cons, hs]; rfl
    | atMost hs => simp only [Place.run_cons, hs]; rfl

/-- The content of a keyword that has no text to search for is stopped. -/
theorem IsContent.run_eq_none {ss : List Shape} {c : Content} (h : IsContent "keyword" ss c) (hc : c.asText? = none)
    {p : Place} (hp : p.IsBetween) : p.run ss = none := by
  cases h with
  | sortKeys hs => exact absurd hs (by decide)
  | dates _ hdates => exact hdates.run_eq_none (.inr rfl) (fun s d hd => kind_of_date? hd) (by simp) hp
  | numbers _ hnumbers =>
    refine hnumbers.run_eq_none (.inl rfl) (fun s n hn => kind_of_number? hn) (fun _ n hn => ?_) hp
    rw [hn] at hc
    cases hc
  | quoted => cases hc
  | symbol => cases hc

/-- The tokens pass only if the property holds, and then terms may follow them. -/
def PassesIf (ss : List Shape) (P : Prop) : Prop :=
  ∀ p p' : Place, p.IsBetween → p.run ss = some p' → P ∧ p'.IsBetween

theorem PassesIf.imp {ss : List Shape} {P Q : Prop} (h : PassesIf ss P) (hPQ : P → Q) : PassesIf ss Q :=
  fun p p' hp hrun => (h p p' hp hrun).imp_left hPQ

theorem PassesIf.append {ss us : List Shape} {P Q : Prop} (h : PassesIf ss P) (h' : PassesIf us Q) :
    PassesIf (ss ++ us) (P ∧ Q) := by
  intro p p' hp hrun
  rw [Place.run_append] at hrun
  obtain ⟨q, hq, hrun⟩ := Option.bind_eq_some_iff.1 hrun
  obtain ⟨hP, hbetween⟩ := h p q hp hq
  obtain ⟨hQ, hp'⟩ := h' q p' hbetween hrun
  exact ⟨⟨hP, hQ⟩, hp'⟩

theorem passesIf_joint {s : Shape} (hs : s.kind ∈ Place.joints) : PassesIf [s] True := by
  intro p p' hp hrun
  rw [Place.run_cons, hp.step_joint hs] at hrun
  cases hrun
  exact ⟨trivial, Place.isBetween_terms⟩

theorem PassesIf.cons_joint {s : Shape} {ss : List Shape} {P : Prop} (hs : s.kind ∈ Place.joints) (h : PassesIf ss P) :
    PassesIf (s :: ss) P := ((passesIf_joint hs).append h).imp And.right

theorem PassesIf.bracketed {ss : List Shape} {P : Prop} (h : PassesIf ss P) : PassesIf (bracketed ss) P :=
  .cons_joint (by decide) ((h.append (passesIf_joint (by decide))).imp And.left)

theorem PassesIf.guardedTokens {f : Filter} {ss : List Shape} {P : Prop} (h : PassesIf ss P) :
    PassesIf (guardedTokens f ss) P := by
  unfold Filter.guardedTokens
  split
  · exact h.bracketed
  · exact h

/-- The text of a keyword is a phrase or a symbol. -/
theorem IsContent.passesIf_text {ss : List Shape} {s : String} (h : IsContent "keyword" ss (.text s)) :
    PassesIf ss True := by
  cases h with
  | dates _ h => cases h
  | numbers _ h => cases h
  | quoted _ hq =>
    intro p p' hp hrun
    rw [hq.run hp.step_quote] at hrun
    cases hrun
    exact ⟨trivial, Place.isBetween_value⟩
  | symbol _ hk => exact passesIf_joint (by rw [hk]; decide)

/-- The tokens of a filter pass only if its keywords have texts to search for. -/
theorem Spells.passesIf {f : Filter} {ss : List Shape} (h : Spells f ss) :
    PassesIf ss (∀ q ∈ f.qualifiers, q.HasKeywordText) := by
  induction h with
  | text hc => exact hc.passesIf_text.imp fun _ q hq _ => by rw [List.mem_singleton.1 hq]; rfl
  | number =>
    refine (passesIf_joint (show Kind.symbol ∈ Place.joints by decide)).imp fun _ q hq _ => ?_
    rw [List.mem_singleton.1 hq]
    rfl
  | mute hmute hc =>
    intro p p' hp hrun
    rw [hc.run_eq_none hmute hp] at hrun
    cases hrun
  | named _ hkind hc =>
    intro p p' hp hrun
    rw [Place.run_cons, hp.step_qualifier, Option.bind_some, hc.run] at hrun
    cases hrun
    refine ⟨fun q hq hk => ?_, Place.isBetween_value⟩
    rw [List.mem_singleton.1 hq, Qualifier.kind] at hk
    exact absurd hk hkind
  | and _ _ ihl ihr => exact (ihl.append ihr.guardedTokens).imp List.forall_mem_append.2
  | or _ _ ihl ihr => exact ((ihl.append (ihr.cons_joint (by decide))).imp List.forall_mem_append.2).bracketed
  | not _ ih => exact ih.guardedTokens.cons_joint (by decide)

/-- A filter whose text is read between brackets has a text to search for in each of its keywords. -/
theorem hasKeywordText_of_derives {f g : Filter} {ss : List Shape} {phrase : Phrase} (h : Spells f ss)
    (hg : Derives phrase (bracketed ss) g) : ∀ q ∈ f.qualifiers, q.HasKeywordText := by
  obtain ⟨p, hrun, -⟩ := hg.exists_run Place.isBetween_terms
  exact (h.passesIf.bracketed _ _ Place.isBetween_terms hrun).1

end IssueQuery.Filter
