/-
Keywords as their texts show them. A keyword is written without its name, so a number that was given
to it becomes a text; it is still satisfied by the same issues.
-/
import IssueQuery.Proofs.Filter.Leaves
import IssueQuery.Proofs.Filter.Reread

namespace IssueQuery

/-! ## Keywords -/

namespace Qualifier

/-- A keyword whose content is a text to search for, or a number. -/
def HasKeywordText (q : Qualifier) : Prop := q.kind = .keyword → q.content.asText?.isSome = true

instance (q : Qualifier) : Decidable q.HasKeywordText :=
  inferInstanceAs (Decidable (q.kind = .keyword → q.content.asText?.isSome = true))

/-- The qualifier, with a text for the content of a keyword. -/
def bare : Qualifier → Qualifier
  | empty => empty
  | named name content =>
    if Kind.ofName name = .keyword then named name ((content.asText?.map .text).getD content) else named name content

theorem kind_keyword (content : Content) : (named "keyword" content).kind = .keyword := by
  have hname : Kind.ofName "keyword" = .keyword := by decide
  exact hname

theorem bare_keyword (content : Content) :
    (named "keyword" content).bare = named "keyword" ((content.asText?.map .text).getD content) := by
  rw [bare]
  exact if_pos (kind_keyword content)

@[simp] theorem kind_bare (q : Qualifier) : q.bare.kind = q.kind := by
  cases q with
  | empty => rfl
  | named name content => rw [bare]; split <;> rfl

theorem bare_of_kind_ne {q : Qualifier} (h : q.kind ≠ .keyword) : q.bare = q := by
  cases q with
  | empty => rfl
  | named name content =>
    rw [kind] at h
    rw [bare, if_neg h]

@[simp] theorem isMeta_bare (q : Qualifier) : q.bare.isMeta = q.isMeta := by rw [isMeta, kind_bare, isMeta]

@[simp] theorem isEmpty_bare (q : Qualifier) : q.bare.isEmpty = q.isEmpty := by
  cases q with
  | empty => rfl
  | named name content => rw [bare]; split <;> rfl

theorem HasPlainKeyword.hasKeywordText {q : Qualifier} (h : q.HasPlainKeyword) : q.HasKeywordText := by
  intro hk
  obtain ⟨s, hs⟩ := h hk
  rw [hs]
  rfl

theorem HasPlainKeyword.bare {q : Qualifier} (h : q.HasPlainKeyword) : q.bare = q := by
  by_cases hk : q.kind = .keyword
  · obtain ⟨s, hs⟩ := h hk
    cases q with
    | empty => rfl
    | named name content =>
      obtain rfl : content = .text s := hs
      rw [Qualifier.bare]
      split <;> rfl
  · exact bare_of_kind_ne hk

theorem asText?_bare (q : Qualifier) : q.bare.content.asText? = q.content.asText? := by
  cases q with
  | empty => rfl
  | named name content =>
    rw [bare]
    split
    · show ((content.asText?.map Content.text).getD content).asText? = content.asText?
      cases h : content.asText? with
      | none => exact h
      | some s => rfl
    · rfl

/-- A keyword searches for its text, wherever that comes from. -/
theorem isSatisfied_bare (q : Qualifier) (s : Setting) (i : Issue) : q.bare.isSatisfied s i = q.isSatisfied s i := by
  by_cases h : q.kind = .keyword
  · unfold isSatisfied
    simp only [kind_bare, h, Content.occursInScope, Content.occursIn, Content.needle?, asText?_bare]
  · rw [bare_of_kind_ne h]

end Qualifier

/-! ## Filters -/

namespace Filter

/-- The filter with texts for the contents of its keywords. -/
def bare : Filter → Filter
  | leaf q => leaf q.bare
  | and left right => and left.bare right.bare
  | or left right => or left.bare right.bare
  | not inner => not inner.bare

@[simp] theorem isJoined_bare (f : Filter) : f.bare.isJoined = f.isJoined := by cases f <;> rfl

@[simp] theorem isNegation_bare (f : Filter) : f.bare.isNegation = f.isNegation := by cases f <;> rfl

theorem qualifiers_bare (f : Filter) : f.bare.qualifiers = f.qualifiers.map Qualifier.bare := by
  induction f with
  | leaf q => rfl
  | and left right ihl ihr => rw [bare, qualifiers, ihl, ihr, qualifiers, List.map_append]
  | or left right ihl ihr => rw [bare, qualifiers, ihl, ihr, qualifiers, List.map_append]
  | not inner ih => rw [bare, qualifiers, ih, qualifiers]

theorem bare_eq_self {f : Filter} (h : ∀ q ∈ f.qualifiers, q.HasPlainKeyword) : f.bare = f := by
  induction f with
  | leaf q => rw [bare, (h q (List.mem_singleton_self q)).bare]
  | and left right ihl ihr =>
    rw [bare, ihl fun q hq => h q (List.mem_append_left _ hq), ihr fun q hq => h q (List.mem_append_right _ hq)]
  | or left right ihl ihr =>
    rw [bare, ihl fun q hq => h q (List.mem_append_left _ hq), ihr fun q hq => h q (List.mem_append_right _ hq)]
  | not inner ih => rw [bare, ih h]

theorem isSatisfied_bare (f : Filter) (s : Setting) (i : Issue) : f.bare.isSatisfied s i = f.isSatisfied s i := by
  induction f with
  | leaf q => exact q.isSatisfied_bare s i
  | and left right ihl ihr => rw [bare, isSatisfied, ihl, ihr, isSatisfied]
  | or left right ihl ihr => rw [bare, isSatisfied, ihl, ihr, isSatisfied]
  | not inner ih => rw [bare, isSatisfied, ih, isSatisfied]

theorem isEmpty_bare (f : Filter) : f.bare.isEmpty = f.isEmpty := by
  induction f with
  | leaf q => exact q.isEmpty_bare
  | not inner ih => exact ih
  | _ => rfl

theorem join_bare (connective : Filter → Filter → Filter)
    (h : ∀ left right, (connective left right).bare = connective left.bare right.bare) (left right : Filter) :
    (join connective left right).bare = join connective left.bare right.bare := by
  unfold join
  rw [isEmpty_bare, isEmpty_bare]
  split
  · rfl
  · split
    · rfl
    · exact h left right

theorem restrict_bare {p : Qualifier → Bool} (hp : ∀ q : Qualifier, p q.bare = p q) (f : Filter) :
    f.bare.restrict p = (f.restrict p).bare := by
  induction f with
  | leaf q =>
    rw [bare, restrict, restrict, hp]
    split <;> rfl
  | and left right ihl ihr => rw [bare, restrict, ihl, ihr, restrict, join_bare and fun _ _ => rfl]
  | or left right ihl ihr => rw [bare, restrict, ihl, ihr, restrict, join_bare or fun _ _ => rfl]
  | not inner ih =>
    rw [bare, restrict, ih, restrict, isEmpty_bare]
    split <;> rfl

/-- Meta-qualifiers are no keywords. -/
theorem ofFilter?_bare (f : Filter) : Scope.ofFilter? f.bare = Scope.ofFilter? f := by
  have hfind : f.bare.find Qualifier.isMeta = f.find Qualifier.isMeta := by
    have hsame : ∀ q ∈ f.qualifiers.filter Qualifier.isMeta, q.bare = q := by
      intro q hq
      have hmeta := (List.mem_filter.1 hq).2
      refine Qualifier.bare_of_kind_ne fun hkeyword => ?_
      rw [Qualifier.isMeta, hkeyword] at hmeta
      cases hmeta
    have hfilter : Qualifier.isMeta ∘ Qualifier.bare = Qualifier.isMeta := funext Qualifier.isMeta_bare
    rw [find, qualifiers_bare, List.filter_map, hfilter, List.map_congr_left hsame, List.map_id', find]
  rw [Scope.ofFilter?, hfind, Scope.ofFilter?]

theorem accepts_bare (f : Filter) (m : Model) (now : Instant) (i : Issue) :
    f.bare.accepts m now i = f.accepts m now i := by
  have hmeta : ∀ q : Qualifier, (!q.bare.isMeta) = !q.isMeta := fun q => by rw [Qualifier.isMeta_bare]
  unfold accepts withoutMeta
  rw [ofFilter?_bare, restrict_bare hmeta]
  simp only [isSatisfied_bare]

end Filter

end IssueQuery
