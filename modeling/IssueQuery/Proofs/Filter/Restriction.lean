/-
What is left of a filter that is restricted to some of its qualifiers. It is pruned: the empty filter,
or one without an empty leaf; so that a restriction can be told by the qualifiers that it keeps, and
restrictions one after the other by what all of them keep.
-/
import IssueQuery.Filter.Basic
import Mathlib

namespace IssueQuery.Filter

/-! ## Pruned filters -/

/-- The filter is the empty one, or none of its leaves is. -/
def IsPruned (f : Filter) : Prop := f = empty ∨ .empty ∉ f.qualifiers

section Pruned

variable {f l r : Filter} {connective : Filter → Filter → Filter}

theorem qualifiers_ne_nil (f : Filter) : f.qualifiers ≠ [] := by
  induction f with
  | leaf q => exact List.cons_ne_nil q []
  | and left right ihl _ | or left right ihl _ => exact List.append_ne_nil_of_left_ne_nil ihl _
  | not inner ih => exact ih

/-- Under its negations an empty filter has the empty leaf and no other. -/
theorem qualifiers_of_isEmpty (h : f.isEmpty = true) : f.qualifiers = [.empty] := by
  induction f with
  | leaf q =>
    cases q with
    | empty => rfl
    | named => cases h
  | and left right | or left right => cases h
  | not inner ih => exact ih h

theorem isEmpty_eq_false (h : .empty ∉ f.qualifiers) : f.isEmpty = false := by
  rw [← Bool.not_eq_true]
  intro hempty
  rw [qualifiers_of_isEmpty hempty] at h
  exact h (List.mem_singleton_self _)

theorem IsPruned.eq_empty (h : f.IsPruned) (hempty : f.isEmpty = true) : f = empty :=
  h.resolve_right fun hmem => Bool.false_ne_true ((isEmpty_eq_false hmem).symm.trans hempty)

theorem join_of_notMem (hl : .empty ∉ l.qualifiers) (hr : .empty ∉ r.qualifiers) :
    join connective l r = connective l r := by
  unfold join
  simp [isEmpty_eq_false hl, isEmpty_eq_false hr]

theorem IsPruned.join_empty_right (h : l.IsPruned) : join connective l empty = l := by
  unfold join
  split
  · rename_i hempty
    exact (h.eq_empty hempty).symm
  · rfl

theorem IsPruned.join (hl : l.IsPruned) (hr : r.IsPruned)
    (hconnective : ∀ l r, (connective l r).qualifiers = l.qualifiers ++ r.qualifiers) :
    (join connective l r).IsPruned := by
  rcases hl with rfl | hl
  · exact hr
  · rcases hr with rfl | hr
    · rw [IsPruned.join_empty_right (.inr hl)]
      exact .inr hl
    · rw [join_of_notMem hl hr, IsPruned, hconnective]
      exact .inr (by simp [hl, hr])

/-- The qualifiers of a pruned filter are those that ask for something, unless nothing does. -/
theorem IsPruned.qualifiers_eq (h : f.IsPruned) : f.qualifiers =
    match f.find fun x => !x.isEmpty with
    | [] => [.empty]
    | found => found := by
  rcases h with rfl | h
  · rfl
  · have hfind : f.find (fun x => !x.isEmpty) = f.qualifiers := by
      refine List.filter_eq_self.2 fun x hx => ?_
      cases x with
      | empty => exact absurd hx h
      | named => rfl
    rw [hfind]
    split
    · rename_i hnil
      exact absurd hnil (qualifiers_ne_nil f)
    · rfl

end Pruned

/-! ## Restrictions -/

section Restriction

variable {f l r : Filter} {connective : Filter → Filter → Filter} {p q : Qualifier → Bool}

theorem isPruned_restrict (p : Qualifier → Bool) (f : Filter) : (f.restrict p).IsPruned := by
  induction f with
  | leaf x =>
    unfold restrict
    split
    · cases x with
      | empty => exact .inl rfl
      | named => exact .inr (by simp [qualifiers])
    · exact .inl rfl
  | and left right ihl ihr | or left right ihl ihr => exact ihl.join ihr fun _ _ => rfl
  | not inner ih =>
    unfold restrict
    split
    · exact .inl rfl
    · rename_i hempty
      refine .inr (ih.resolve_left ?_)
      intro heq
      exact hempty (heq ▸ rfl)

/-- What is left of a filter is the empty one if it asks for nothing. -/
theorem eq_empty_of_isEmpty_restrict (h : (f.restrict p).isEmpty = true) : f.restrict p = empty :=
  (isPruned_restrict p f).eq_empty h

theorem find_join (hconnective : ∀ l r, (connective l r).qualifiers = l.qualifiers ++ r.qualifiers) :
    (join connective l r).find (fun x => !x.isEmpty) =
      l.find (fun x => !x.isEmpty) ++ r.find (fun x => !x.isEmpty) := by
  have hnil {f : Filter} (hf : f.isEmpty = true) : f.find (fun x => !x.isEmpty) = [] := by
    rw [find, qualifiers_of_isEmpty hf]
    rfl
  unfold join
  split
  · rename_i hl
    rw [hnil hl, List.nil_append]
  · split
    · rename_i hr
      rw [hnil hr, List.append_nil]
    · rw [find, hconnective, List.filter_append]
      rfl

/-- A restriction keeps the qualifiers that satisfy the condition, in their order. -/
theorem find_restrict (p : Qualifier → Bool) (f : Filter) :
    (f.restrict p).find (fun x => !x.isEmpty) = f.find fun x => p x && !x.isEmpty := by
  induction f with
  | leaf x =>
    by_cases hx : p x = true
    · simp [restrict, find, qualifiers, hx, List.filter_singleton]
    · simp [restrict, find, qualifiers, hx, empty, Qualifier.isEmpty]
  | and left right ihl ihr | or left right ihl ihr =>
    rw [restrict, find_join fun _ _ => rfl, ihl, ihr, find, find, find, qualifiers, List.filter_append]
  | not inner ih =>
    change _ = inner.find fun x => p x && !x.isEmpty
    rw [restrict, ← ih]
    split
    · rename_i hempty
      rw [eq_empty_of_isEmpty_restrict hempty]
    · rfl

theorem restrict_empty (q : Qualifier → Bool) : empty.restrict q = empty := ite_self _

theorem restrict_join (hl : l.IsPruned) (hr : r.IsPruned)
    (hconnective : ∀ l r, (connective l r).restrict q = join connective (l.restrict q) (r.restrict q)) :
    (join connective l r).restrict q = join connective (l.restrict q) (r.restrict q) := by
  rcases hl with rfl | hl
  · rw [restrict_empty]
    rfl
  · rcases hr with rfl | hr
    · rw [IsPruned.join_empty_right (.inr hl), restrict_empty, (isPruned_restrict q l).join_empty_right]
    · rw [join_of_notMem hl hr, hconnective]

/-- One restriction after another keeps what both of them keep. -/
theorem restrict_restrict (p q : Qualifier → Bool) (f : Filter) :
    (f.restrict p).restrict q = f.restrict fun x => p x && q x := by
  induction f with
  | leaf x =>
    by_cases hx : p x = true
    · simp [restrict, hx]
    · simp [restrict, hx, restrict_empty]
  | and left right ihl ihr | or left right ihl ihr =>
    rw [restrict, restrict_join (isPruned_restrict p left) (isPruned_restrict p right) fun _ _ => rfl, ihl, ihr, restrict]
  | not inner ih =>
    rw [restrict, restrict, ← ih]
    split
    · rename_i hempty
      rw [eq_empty_of_isEmpty_restrict hempty, restrict_empty]
      rfl
    · rw [restrict]

theorem restrict_true (h : .empty ∉ f.qualifiers) : f.restrict (fun _ => true) = f := by
  induction f with
  | leaf x => rfl
  | and left right ihl ihr | or left right ihl ihr =>
    rw [qualifiers, List.mem_append, not_or] at h
    rw [restrict, ihl h.1, ihr h.2, join_of_notMem h.1 h.2]
  | not inner ih =>
    have hempty : inner.isEmpty = false := isEmpty_eq_false h
    rw [restrict, ih h, hempty]
    rfl

end Restriction

/-- What is left of a filter has no empty leaf unless it is the empty filter, which it is if it asks for
nothing; its qualifiers are those of the filter that ask for something and satisfy the condition, from
left to right. To restrict it again is to restrict the filter by both conditions, and a filter without
an empty leaf is left as it is by a condition that all qualifiers satisfy. -/
theorem restrict_spec (f : Filter) (p q : Qualifier → Bool) :
    (f.restrict p = empty ∨ .empty ∉ (f.restrict p).qualifiers ∧ (f.restrict p).isEmpty = false) ∧
    (f.restrict p).qualifiers = (match f.find fun x => p x && !x.isEmpty with
      | [] => [.empty]
      | found => found) ∧
    (f.restrict p).restrict q = f.restrict (fun x => p x && q x) ∧
    (.empty ∉ f.qualifiers → f.restrict (fun _ => true) = f) := by
  refine ⟨(isPruned_restrict p f).imp_right fun h => ⟨h, isEmpty_eq_false h⟩, ?_, restrict_restrict p q f, restrict_true⟩
  rw [(isPruned_restrict p f).qualifiers_eq, find_restrict]

/-- A filter with a negated disjunction keeps its shape. -/
theorem restrict_true_negated_choice :
    let word (s : String) : Filter := leaf (.keyword s)
    let f : Filter := and (and (word "a") (not (or (word "b") (word "c")))) (word "d")
    .empty ∉ f.qualifiers ∧ f.restrict (fun _ => true) = f := by
  intro word f
  have hempty : .empty ∉ f.qualifiers := by decide
  exact ⟨hempty, (restrict_spec f (fun _ => true) fun _ => true).2.2.2 hempty⟩

/-- Empty leaves go with their connectives and negations. -/
example : let word (s : String) : Filter := leaf (.keyword s)
    (or (not (not empty)) (and (word "a") empty)).restrict (fun _ => true) = word "a" := by decide

end IssueQuery.Filter
