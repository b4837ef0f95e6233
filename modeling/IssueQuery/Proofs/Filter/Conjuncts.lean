/-
The conjuncts of a filter, nested conjunctions dissolved. What a filter means depends on them alone:
which issues satisfy it, with or without its meta-qualifiers, and whether it can be applied.
-/
import IssueQuery.Filter.Match
import IssueQuery.Proofs.Filter.Restriction

namespace IssueQuery.Filter

/-- The conjunction of the filters, grouped to the left. -/
def joined : List Filter → Filter
  | [] => empty
  | f :: fs => fs.foldl and f

/-- The conjuncts from left to right. Conjunctions under a disjunction or a negation are dissolved
too, and grouped to the left. -/
def conjuncts : Filter → List Filter
  | leaf q => [leaf q]
  | and left right => left.conjuncts ++ right.conjuncts
  | or left right => [or (joined left.conjuncts) (joined right.conjuncts)]
  | not inner => [not (joined inner.conjuncts)]

theorem conjuncts_ne_nil (f : Filter) : f.conjuncts ≠ [] := by
  induction f with
  | and left right ihl _ => simp [conjuncts, ihl]
  | _ => simp [conjuncts]

/-- A function that sends conjunctions to lists in order does so with conjunctions of many. -/
theorem map_foldl {β : Type} {F : Filter → List β} (hF : ∀ l r, F (and l r) = F l ++ F r) (f : Filter)
    (fs : List Filter) : F (fs.foldl and f) = F f ++ fs.flatMap F := by
  induction fs generalizing f with
  | nil => simp
  | cons g gs ih => rw [List.foldl_cons, ih, hF, List.append_assoc]; rfl

theorem map_joined {β : Type} {F : Filter → List β} (hF : ∀ l r, F (and l r) = F l ++ F r) {fs : List Filter}
    (h : fs ≠ []) : F (joined fs) = fs.flatMap F := by
  obtain ⟨f, fs, rfl⟩ := List.exists_cons_of_ne_nil h
  exact map_foldl hF f fs

/-! ## Qualifiers and satisfaction -/

theorem qualifiers_eq_flatMap (f : Filter) : f.qualifiers = f.conjuncts.flatMap qualifiers := by
  have hjoined {f : Filter} (h : f.qualifiers = f.conjuncts.flatMap qualifiers) :
      (joined f.conjuncts).qualifiers = f.qualifiers :=
    (map_joined (fun _ _ => rfl) (conjuncts_ne_nil f)).trans h.symm
  induction f with
  | leaf q => rfl
  | and left right ihl ihr => rw [conjuncts, List.flatMap_append, ← ihl, ← ihr]; rfl
  | or left right ihl ihr => simp [conjuncts, qualifiers, hjoined ihl, hjoined ihr]
  | not inner ih => simp [conjuncts, qualifiers, hjoined ih]

theorem isSatisfied_foldl (s : Setting) (i : Issue) (f : Filter) (fs : List Filter) :
    (fs.foldl and f).isSatisfied s i = (f :: fs).all (isSatisfied s i) := by
  induction fs generalizing f with
  | nil => simp
  | cons g gs ih => rw [List.foldl_cons, ih]; simp [isSatisfied, Bool.and_assoc]

theorem isSatisfied_joined (s : Setting) (i : Issue) {fs : List Filter} (h : fs ≠ []) :
    (joined fs).isSatisfied s i = fs.all (isSatisfied s i) := by
  obtain ⟨f, fs, rfl⟩ := List.exists_cons_of_ne_nil h
  exact isSatisfied_foldl s i f fs

theorem isSatisfied_eq_all (s : Setting) (i : Issue) (f : Filter) :
    f.isSatisfied s i = f.conjuncts.all (isSatisfied s i) := by
  induction f with
  | leaf q => simp [conjuncts]
  | and left right ihl ihr => simp [conjuncts, isSatisfied, ihl, ihr]
  | or left right ihl ihr =>
    simp [conjuncts, isSatisfied, isSatisfied_joined s i (conjuncts_ne_nil _), ← ihl, ← ihr]
  | not inner ih => simp [conjuncts, isSatisfied, isSatisfied_joined s i (conjuncts_ne_nil _), ← ih]

/-! ## Applicability -/

theorem isApplicable_iff (f : Filter) :
    f.isApplicable = true ↔ f.exclusiveKinds.Nodup ∧ ∀ c ∈ f.conjuncts, c.isApplicable = true := by
  induction f with
  | leaf q =>
    have : (leaf q).exclusiveKinds.Nodup := List.Nodup.filter _ (List.nodup_singleton _)
    simp [conjuncts, this]
  | and left right ihl ihr =>
    have hkinds : (and left right).exclusiveKinds = left.exclusiveKinds ++ right.exclusiveKinds := by
      simp [exclusiveKinds, kinds, qualifiers]
    simp only [isApplicable, conjuncts, Bool.and_eq_true, decide_eq_true_eq, ihl, ihr, hkinds, List.mem_append]
    constructor
    · rintro ⟨⟨hn, -, hl⟩, -, hr⟩
      exact ⟨hn, fun c hc => hc.elim (hl c) (hr c)⟩
    · rintro ⟨hn, h⟩
      have := List.nodup_append.1 hn
      exact ⟨⟨hn, this.1, fun c hc => h c (.inl hc)⟩, this.2.1, fun c hc => h c (.inr hc)⟩
  | or left right => simp [conjuncts, isApplicable]
  | not inner => simp [conjuncts, isApplicable]

theorem forall_conjuncts_isApplicable_iff (f : Filter) : (∀ c ∈ f.conjuncts, c.isApplicable = true) ↔
    f.isConjunction = true ∧ ∀ q ∈ f.qualifiers, q.isApplicable = true := by
  induction f with
  | leaf q => simp [conjuncts, isApplicable, isConjunction, qualifiers]
  | and left right ihl ihr =>
    rw [conjuncts, List.forall_mem_append, ihl, ihr, isConjunction, Bool.and_eq_true, qualifiers, List.forall_mem_append]
    exact and_and_and_comm
  | or left right | not inner => simp [conjuncts, isApplicable, isConjunction]

theorem isConjunction_of_isApplicable {f : Filter} (h : f.isApplicable = true) : f.isConjunction = true :=
  ((forall_conjuncts_isApplicable_iff f).1 ((isApplicable_iff f).1 h).2).1

/-! ## Restriction -/

/-- The conjuncts of a filter that asks for something. -/
def demands (f : Filter) : List Filter := if f.isEmpty then [] else f.conjuncts

theorem demands_eq_nil_iff {f : Filter} : f.demands = [] ↔ f.isEmpty = true := by
  unfold demands
  split
  · simp [*]
  · simp [*, conjuncts_ne_nil]

theorem demands_join_and (l r : Filter) : (join and l r).demands = l.demands ++ r.demands := by
  unfold join
  by_cases hl : l.isEmpty
  · simp [hl, demands]
  by_cases hr : r.isEmpty
  · simp [hl, hr, demands]
  · simp [hl, hr, demands, isEmpty, conjuncts]

theorem demands_join_or (l r : Filter) : (join or l r).demands =
    if l.demands = [] then r.demands else if r.demands = [] then l.demands
      else [or (joined l.demands) (joined r.demands)] := by
  unfold join
  by_cases hl : l.isEmpty
  · simp [hl, demands_eq_nil_iff]
  by_cases hr : r.isEmpty
  · simp [hl, hr, demands_eq_nil_iff]
  · simp [hl, hr, demands, isEmpty, conjuncts, conjuncts_ne_nil]

theorem demands_restrict_not (p : Qualifier → Bool) (f : Filter) : ((not f).restrict p).demands =
    if (f.restrict p).demands = [] then [] else [not (joined (f.restrict p).demands)] := by
  by_cases hf : (f.restrict p).isEmpty
  · simp [restrict, hf, demands, empty, isEmpty, Qualifier.isEmpty]
  · simp [restrict, hf, demands, isEmpty, conjuncts, conjuncts_ne_nil]

theorem demands_restrict (p : Qualifier → Bool) (f : Filter) :
    (f.restrict p).demands = f.conjuncts.flatMap fun c => (c.restrict p).demands := by
  -- conjuncts that were dissolved under a connective are joined there again
  have hjoined {f : Filter} (h : (f.restrict p).demands = f.conjuncts.flatMap fun c => (c.restrict p).demands) :
      ((joined f.conjuncts).restrict p).demands = (f.restrict p).demands :=
    (map_joined (F := fun f => (f.restrict p).demands) (fun _ _ => demands_join_and _ _)
      (conjuncts_ne_nil f)).trans h.symm
  induction f with
  | leaf q => simp [conjuncts]
  | and left right ihl ihr =>
    rw [conjuncts, List.flatMap_append, ← ihl, ← ihr]
    exact demands_join_and _ _
  | or left right ihl ihr =>
    simp only [conjuncts, List.flatMap_cons, List.flatMap_nil, List.append_nil, restrict, demands_join_or,
      hjoined ihl, hjoined ihr]
  | not inner ih =>
    simp only [conjuncts, List.flatMap_cons, List.flatMap_nil, List.append_nil, demands_restrict_not, hjoined ih]

/-! ## Equal conjuncts -/

section Congruence

variable {f g : Filter} (h : f.conjuncts = g.conjuncts)
include h

theorem qualifiers_congr : f.qualifiers = g.qualifiers := by
  rw [qualifiers_eq_flatMap, h, ← qualifiers_eq_flatMap]

theorem isSatisfied_congr (s : Setting) (i : Issue) : f.isSatisfied s i = g.isSatisfied s i := by
  rw [isSatisfied_eq_all, h, ← isSatisfied_eq_all]

theorem isApplicable_congr : f.isApplicable = g.isApplicable := by
  rw [Bool.eq_iff_iff, isApplicable_iff, isApplicable_iff, h]
  simp only [exclusiveKinds, kinds, qualifiers_congr h]

theorem conjuncts_restrict_congr (p : Qualifier → Bool) : (f.restrict p).conjuncts = (g.restrict p).conjuncts := by
  have hd : (f.restrict p).demands = (g.restrict p).demands := by rw [demands_restrict, h, ← demands_restrict]
  by_cases hf : (f.restrict p).isEmpty = true
  · have hg : (g.restrict p).isEmpty = true := by
      rw [← demands_eq_nil_iff, ← hd, demands_eq_nil_iff]; exact hf
    rw [eq_empty_of_isEmpty_restrict hf, eq_empty_of_isEmpty_restrict hg]
  · have hg : ¬ (g.restrict p).isEmpty = true := by
      rw [← demands_eq_nil_iff, ← hd, demands_eq_nil_iff]; exact hf
    rwa [demands, demands, if_neg hf, if_neg hg] at hd

theorem ofFilter?_congr : Scope.ofFilter? f = Scope.ofFilter? g := by
  unfold Scope.ofFilter? find
  rw [qualifiers_congr h]

theorem accepts_congr (m : Model) (now : Instant) (i : Issue) : f.accepts m now i = g.accepts m now i := by
  unfold accepts withoutMeta
  rw [ofFilter?_congr h]
  simp only [isSatisfied_congr (conjuncts_restrict_congr h _)]

end Congruence

end IssueQuery.Filter
