/-
What a filter finds of an issue in one pass. A leaf that tests nothing has no value, and connectives
pass over what has none; so meta-qualifiers need not be set aside first, and it does not matter where
in the filter they stand.
-/
import IssueQuery.Proofs.Filter.Conjuncts

namespace IssueQuery

open Qualifier (Content)

namespace Filter

/-- What stands in the `in:` qualifiers, from left to right. -/
def fields (f : Filter) : List Content := (f.find fun q => q.kind == .field).map Qualifier.content

/-- Whether the issue satisfies the filter, if this tests anything. Bare keywords are sought in the
field that is named, if one is. -/
def value (m : Model) (field : Option String) (now : Instant) (i : Issue) : Filter → Option Bool
  | leaf q => if q.isEmpty || q.isMeta then none else some (q.isSatisfied ⟨m, ⟨field, []⟩, now⟩ i)
  | and left right => Option.merge (· && ·) (left.value m field now i) (right.value m field now i)
  | or left right => Option.merge (· || ·) (left.value m field now i) (right.value m field now i)
  | not inner => (inner.value m field now i).map (!·)

/-! ## The value and the filter without its meta-qualifiers -/

section Value

variable {s : Setting} {i : Issue}

/-- The value of a filter whose meta-qualifiers have been set aside. -/
def valueOf (s : Setting) (i : Issue) (f : Filter) : Option Bool := if f.isEmpty then none else some (f.isSatisfied s i)

theorem valueOf_join {connective : Filter → Filter → Filter} {op : Bool → Bool → Bool} {left right : Filter}
    (hempty : (connective left right).isEmpty = false)
    (hop : (connective left right).isSatisfied s i = op (left.isSatisfied s i) (right.isSatisfied s i)) :
    valueOf s i (join connective left right) = Option.merge op (valueOf s i left) (valueOf s i right) := by
  unfold join
  by_cases hl : left.isEmpty = true
  · simp [valueOf, hl]
  by_cases hr : right.isEmpty = true
  · simp [valueOf, hl, hr]
  · simp [valueOf, hl, hr, hempty, hop]

/-- Of the scope, a qualifier needs the field alone. -/
theorem isSatisfied_eq_of_field (q : Qualifier) :
    q.isSatisfied ⟨s.model, ⟨s.scope.field, []⟩, s.now⟩ i = q.isSatisfied s i := by
  unfold Qualifier.isSatisfied
  cases q.kind <;> rfl

theorem value_eq_valueOf (f : Filter) : f.value s.model s.scope.field s.now i = valueOf s i f.withoutMeta := by
  unfold withoutMeta
  induction f with
  | leaf q =>
    rw [value, restrict]
    by_cases hm : q.isMeta = true
    · simp [hm, valueOf, empty, isEmpty, Qualifier.isEmpty]
    · simp [hm, valueOf, isEmpty, isSatisfied, isSatisfied_eq_of_field]
  | and left right ihl ihr =>
    rw [value, ihl, ihr, restrict]
    exact (valueOf_join rfl rfl).symm
  | or left right ihl ihr =>
    rw [value, ihl, ihr, restrict]
    exact (valueOf_join rfl rfl).symm
  | not inner ih =>
    rw [value, ih, restrict]
    split
    · rename_i he
      simp [valueOf, he, empty, isEmpty, Qualifier.isEmpty]
    · rename_i he
      simp [valueOf, he, isEmpty, isSatisfied]

/-- What has no value is satisfied. -/
theorem isSatisfied_withoutMeta (f : Filter) :
    f.withoutMeta.isSatisfied s i = (f.value s.model s.scope.field s.now i).getD true := by
  rw [value_eq_valueOf, valueOf]
  split
  · rename_i he
    have hempty : f.withoutMeta = empty := eq_empty_of_isEmpty_restrict he
    rw [hempty]
    rfl
  · rfl

end Value

end Filter

/-! ## The field of a filter -/

/-- The field when further `in:` qualifiers follow. There is at most one, and it holds a text. -/
def fieldAfter : Option String → List Content → Except SemanticError (Option String)
  | field, [] => .ok field
  | some _, _ :: _ => .error .repeatedField
  | none, .text name :: cs => fieldAfter (some (Text.lower name)) cs
  | none, c :: _ => .error (.badField c)

namespace Scope

theorem add_field {s : Scope} {q : Qualifier} (h : q.kind = .field) : s.add q =
    match s.field, q.content with
    | some _, _ => .error .repeatedField
    | none, .text name => .ok ⟨some (Text.lower name), s.sortKeys⟩
    | none, c => .error (.badField c) := by
  unfold add
  rw [h]
  cases s.field with
  | none => cases q.content <;> rfl
  | some field => rfl

theorem exists_add {s : Scope} {q : Qualifier} (h : q.kind ≠ .field) : ∃ keys, s.add q = .ok ⟨s.field, keys⟩ := by
  unfold add
  split
  · rename_i hk
    exact absurd hk h
  · exact ⟨_, rfl⟩
  · exact ⟨s.sortKeys, rfl⟩

/-- Of the qualifiers that make up a scope, those of the field alone tell its field. -/
theorem map_field_foldlM (qs : List Qualifier) (s : Scope) : (qs.foldlM add s).map field =
    fieldAfter s.field ((qs.filter fun q => q.kind == .field).map Qualifier.content) := by
  induction qs generalizing s with
  | nil =>
    cases s with
    | mk field keys => cases field <;> rfl
  | cons q qs ih =>
    rw [List.foldlM_cons]
    by_cases hk : q.kind = .field
    · rw [List.filter_cons_of_pos (by simpa using hk), List.map_cons, add_field hk]
      obtain ⟨field, keys⟩ := s
      cases field with
      | some field => rfl
      | none =>
        cases q.content with
        | text name => exact ih ⟨some (Text.lower name), keys⟩
        | _ => rfl
    · rw [List.filter_cons_of_neg (by simpa using hk)]
      obtain ⟨keys, hadd⟩ := exists_add (s := s) hk
      rw [hadd]
      exact ih ⟨s.field, keys⟩

theorem map_field_ofFilter? (f : Filter) : (ofFilter? f).map field = fieldAfter none f.fields := by
  have hfields : (f.find Qualifier.isMeta).filter (fun q => q.kind == .field) = f.find fun q => q.kind == .field := by
    unfold Filter.find
    rw [List.filter_filter]
    refine List.filter_congr fun q _ => ?_
    cases hk : q.kind <;> simp [Qualifier.isMeta, Qualifier.Kind.isMeta, hk]
  rw [ofFilter?, map_field_foldlM, hfields]
  rfl

end Scope

namespace Filter

theorem accepts_eq (f : Filter) (m : Model) (now : Instant) (i : Issue) : f.accepts m now i =
    (fieldAfter none f.fields).map fun field => (f.value m field now i).getD true := by
  rw [← Scope.map_field_ofFilter?, accepts]
  cases Scope.ofFilter? f with
  | error e => rfl
  | ok scope => exact congrArg Except.ok (isSatisfied_withoutMeta f)

/-! ## Sort terms -/

/-- All that the filter says is how to sort. -/
def OnlySorts (f : Filter) : Prop := ∀ q ∈ f.qualifiers, q.kind = .sort

/-- The filters are the same but for `sort:` terms, which may stand anywhere in either. -/
inductive SameButSorts : Filter → Filter → Prop
  | alone {g : Filter} : OnlySorts g → SameButSorts g empty
  | andLeft {f g : Filter} : OnlySorts g → SameButSorts (and g f) f
  | andRight {f g : Filter} : OnlySorts g → SameButSorts (and f g) f
  | orLeft {f g : Filter} : OnlySorts g → SameButSorts (or g f) f
  | orRight {f g : Filter} : OnlySorts g → SameButSorts (or f g) f
  | and {f f' g g' : Filter} : SameButSorts f f' → SameButSorts g g' → SameButSorts (and f g) (and f' g')
  | or {f f' g g' : Filter} : SameButSorts f f' → SameButSorts g g' → SameButSorts (or f g) (or f' g')
  | not {f f' : Filter} : SameButSorts f f' → SameButSorts (not f) (not f')
  | refl (f : Filter) : SameButSorts f f
  | symm {f g : Filter} : SameButSorts f g → SameButSorts g f
  | trans {f g h : Filter} : SameButSorts f g → SameButSorts g h → SameButSorts f h

section Sorts

variable {m : Model} {field : Option String} {now : Instant} {i : Issue} {f g : Filter}

theorem OnlySorts.fields (h : OnlySorts g) : g.fields = [] := by
  unfold Filter.fields find
  rw [List.map_eq_nil_iff, List.filter_eq_nil_iff]
  intro q hq
  simp [h q hq]

theorem OnlySorts.value (h : OnlySorts g) : g.value m field now i = none := by
  unfold OnlySorts at h
  induction g with
  | leaf q =>
    have hk : q.kind = .sort := h q (List.mem_singleton_self _)
    simp [Filter.value, Qualifier.isMeta, Qualifier.Kind.isMeta, hk]
  | and left right ihl ihr =>
    rw [Filter.value, ihl fun q hq => h q (List.mem_append_left _ hq), ihr fun q hq => h q (List.mem_append_right _ hq)]
    rfl
  | or left right ihl ihr =>
    rw [Filter.value, ihl fun q hq => h q (List.mem_append_left _ hq), ihr fun q hq => h q (List.mem_append_right _ hq)]
    rfl
  | not inner ih =>
    rw [Filter.value, ih h]
    rfl

theorem fields_and (f g : Filter) : (and f g).fields = f.fields ++ g.fields := by
  simp [fields, find, qualifiers]

theorem fields_or (f g : Filter) : (or f g).fields = f.fields ++ g.fields := by
  simp [fields, find, qualifiers]

theorem SameButSorts.fields (h : SameButSorts f g) : f.fields = g.fields := by
  induction h with
  | alone h => rw [h.fields]; rfl
  | andLeft h => rw [fields_and, h.fields, List.nil_append]
  | andRight h => rw [fields_and, h.fields, List.append_nil]
  | orLeft h => rw [fields_or, h.fields, List.nil_append]
  | orRight h => rw [fields_or, h.fields, List.append_nil]
  | and _ _ ih1 ih2 => rw [fields_and, fields_and, ih1, ih2]
  | or _ _ ih1 ih2 => rw [fields_or, fields_or, ih1, ih2]
  | not _ ih => exact ih
  | refl => rfl
  | symm _ ih => exact ih.symm
  | trans _ _ ih1 ih2 => exact ih1.trans ih2

theorem SameButSorts.value (h : SameButSorts f g) : f.value m field now i = g.value m field now i := by
  induction h with
  | alone h => rw [h.value]; rfl
  | andLeft h => rw [Filter.value, h.value, Option.merge_none_left]
  | andRight h => rw [Filter.value, h.value, Option.merge_none_right]
  | orLeft h => rw [Filter.value, h.value, Option.merge_none_left]
  | orRight h => rw [Filter.value, h.value, Option.merge_none_right]
  | and _ _ ih1 ih2 => rw [Filter.value, ih1, ih2, Filter.value]
  | or _ _ ih1 ih2 => rw [Filter.value, ih1, ih2, Filter.value]
  | not _ ih => rw [Filter.value, ih, Filter.value]
  | refl => rfl
  | symm _ ih => exact ih.symm
  | trans _ _ ih1 ih2 => exact ih1.trans ih2

end Sorts

/-- A filter with one `in:` qualifier at most, which holds a text, accepts the issues for which its
value under that field is not false; any other filter is an error. Terms that sort do not matter. -/
theorem accepts_eq_value (f : Filter) (m : Model) (now : Instant) (i : Issue) :
    (match f.fields with
      | [] => f.accepts m now i = .ok ((f.value m none now i).getD true)
      | [.text name] => f.accepts m now i = .ok ((f.value m (some (Text.lower name)) now i).getD true)
      | _ => ∃ e, f.accepts m now i = .error e) ∧
    ∀ g, SameButSorts f g → g.accepts m now i = f.accepts m now i := by
  constructor
  · rw [accepts_eq]
    generalize f.fields = cs
    match cs with
    | [] => rfl
    | [.text name] => rfl
    | .text name :: c :: cs => exact ⟨_, rfl⟩
    | .date d :: cs => exact ⟨_, rfl⟩
    | .dates r :: cs => exact ⟨_, rfl⟩
    | .number n :: cs => exact ⟨_, rfl⟩
    | .numbers r :: cs => exact ⟨_, rfl⟩
    | .sortKeys keys :: cs => exact ⟨_, rfl⟩
  · intro g h
    rw [accepts_eq, accepts_eq, h.fields]
    simp only [h.value]

/-- The negation of a number is false of the issue of that number, with a negated `sort:` term beside
it in a disjunction as without. -/
theorem accepts_sort_or_not_id :
    let now : Instant := ⟨⟨2024, 1, 1, by decide⟩, 0, 0, by decide⟩
    let i : Issue := ⟨5, "Crash", "", "ada", now, now, .opened, .issue, none, none, [], none, 0⟩
    (or (not (leaf (.named "sort" (.sortKeys [⟨"id", false⟩])))) (not (leaf (.named "id" (.number 5))))).accepts
      .empty now i = .ok false := by
  intro now i
  obtain ⟨hvalue, hsorts⟩ := accepts_eq_value (not (leaf (.named "id" (.number 5)))) .empty now i
  have honly : OnlySorts (not (leaf (.named "sort" (.sortKeys [⟨"id", false⟩])))) := by
    intro q hq
    obtain rfl := List.mem_singleton.1 hq
    decide
  rw [hsorts _ (.symm (.orLeft honly))]
  exact hvalue.trans (by decide)

end Filter

end IssueQuery
