/-
What a listing shows. Issues are told apart by their places in the model, so that an issue that is there
twice is listed twice: the places of those that the filter accepts are sorted by its keys, those that no
key tells apart stay in order, and the first of them are shown.
-/
import IssueQuery.Project.Listing
import IssueQuery.Proofs.Issue.Order
import IssueQuery.Proofs.Reading
import Mathlib.Data.List.FinRange

namespace IssueQuery

/-! ## The keys of a filter -/

/-- The keys that the qualifier gives to sort by. -/
def Qualifier.keys (q : Qualifier) : List SortKey :=
  match q.kind, q.content with
  | .sort, .sortKeys keys => keys
  | _, _ => []

/-- The keys that the qualifiers give to sort by, from left to right. -/
def Filter.keys (f : Filter) : List SortKey := f.qualifiers.flatMap Qualifier.keys

namespace Scope

theorem sortKeys_add {s s' : Scope} {q : Qualifier} (h : s.add q = .ok s') : s'.sortKeys = s.sortKeys ++ q.keys := by
  unfold add at h
  unfold Qualifier.keys
  split at h
  · rename_i hk
    rw [hk]
    split at h
    · cases h
    · split at h <;> cases h
      exact (List.append_nil _).symm
  · rename_i hk hcontent
    cases h
    rw [hk, hcontent]
  · rename_i hsort
    cases h
    split
    · rename_i hk hcontent
      exact absurd hcontent (hsort _ hk)
    · exact (List.append_nil _).symm

theorem sortKeys_foldlM {qs : List Qualifier} {s s' : Scope} (h : qs.foldlM add s = .ok s') :
    s'.sortKeys = s.sortKeys ++ qs.flatMap Qualifier.keys := by
  induction qs generalizing s with
  | nil =>
    cases h
    exact (List.append_nil _).symm
  | cons q qs ih =>
    rw [List.foldlM_cons, bind_eq_ok_iff] at h
    obtain ⟨staged, hstaged, h⟩ := h
    rw [ih h, sortKeys_add hstaged, List.flatMap_cons, List.append_assoc]

/-- Only meta-qualifiers give keys. -/
theorem flatMap_keys_filter (qs : List Qualifier) :
    (qs.filter Qualifier.isMeta).flatMap Qualifier.keys = qs.flatMap Qualifier.keys := by
  induction qs with
  | nil => rfl
  | cons q qs ih =>
    by_cases hmeta : q.isMeta = true
    · rw [List.filter_cons_of_pos hmeta, List.flatMap_cons, List.flatMap_cons, ih]
    · have hnil : q.keys = [] := by
        revert hmeta
        unfold Qualifier.isMeta Qualifier.keys
        cases q.kind <;> simp [Qualifier.Kind.isMeta]
      rw [List.filter_cons_of_neg hmeta, List.flatMap_cons, hnil, ih, List.nil_append]

/-- The keys of a scope are those of all qualifiers of the filter. -/
theorem sortKeys_ofFilter? {f : Filter} {scope : Scope} (h : ofFilter? f = .ok scope) : scope.sortKeys = f.keys := by
  rw [sortKeys_foldlM h, Filter.find, flatMap_keys_filter]
  rfl

end Scope

/-! ## Listings -/

namespace Listing

variable {f : Filter} {m : Model} {scope : Scope} {now : Instant}

/-- The order of places in a model by the issues there. -/
def comparePlaces (keys : List SortKey) (m : Model) (p q : Fin m.issues.length) : Ordering :=
  Issue.compareBy keys m.issues[p] m.issues[q]

instance (keys : List SortKey) (m : Model) : Std.TransCmp (comparePlaces keys m) :=
  transCmp_comap (Issue.compareBy keys) fun p : Fin m.issues.length => m.issues[p]

/-- The places of the issues that satisfy the filter, in the order of its sort keys. -/
def places (f : Filter) (m : Model) (scope : Scope) (now : Instant) : List (Fin m.issues.length) :=
  ((List.finRange m.issues.length).filter fun p => f.withoutMeta.isSatisfied ⟨m, scope, now⟩ m.issues[p]).mergeSort
    fun p q => (comparePlaces scope.sortKeys m p q).isLE

theorem map_places (f : Filter) (m : Model) (scope : Scope) (now : Instant) :
    (places f m scope now).map (m.issues[·]) =
      Issue.sortBy scope.sortKeys (m.issues.filter (f.withoutMeta.isSatisfied ⟨m, scope, now⟩ ·)) := by
  have hissues : (List.finRange m.issues.length).map (m.issues[·]) = m.issues := List.map_get_finRange m.issues
  have hfound : m.issues.filter (f.withoutMeta.isSatisfied ⟨m, scope, now⟩ ·) =
      ((List.finRange m.issues.length).filter fun p =>
        f.withoutMeta.isSatisfied ⟨m, scope, now⟩ m.issues[p]).map (m.issues[·]) := by
    conv_lhs => rw [← hissues, List.filter_map]
    rfl
  rw [hfound]
  exact List.map_mergeSort fun _ _ _ _ => rfl

theorem mem_places_iff (hscope : Scope.ofFilter? f = .ok scope) {p : Fin m.issues.length} :
    p ∈ places f m scope now ↔ f.accepts m now m.issues[p] = .ok true := by
  rw [places, List.mem_mergeSort, List.mem_filter, and_iff_right (List.mem_finRange p), Filter.accepts, hscope]
  exact (Except.ok.injEq ..).to_iff.symm

theorem nodup_places (f : Filter) (m : Model) (scope : Scope) (now : Instant) : (places f m scope now).Nodup :=
  (List.mergeSort_perm _ _).nodup_iff.2 ((List.nodup_finRange _).filter _)

/-- A filter lists the places of the issues that it accepts. -/
theorem select_eq (hscope : Scope.ofFilter? f = .ok scope) (limit : Option Nat) :
    select f m now limit = .ok (((places f m scope now).take
      (min (limit.getD (places f m scope now).length) (places f m scope now).length)).map (m.issues[·])) := by
  rw [List.map_take, map_places, ← List.length_map (m.issues[·]), map_places, select, hscope]
  cases limit with
  | none => simp [bind, Except.bind, pure, Except.pure]
  | some n => simp [bind, Except.bind, pure, Except.pure]

/-- A listing fails as the meta-qualifiers of the filter do. Else it shows a number of places, each once,
of the issues that the filter accepts, from the first on, where no issue comes after one that it is less
than, and issues that compare equal come in the order of the model. -/
theorem select_spec (f : Filter) (m : Model) (now : Instant) (limit : Option Nat) :
    match Scope.ofFilter? f with
    | .error e => select f m now limit = .error e
    | .ok scope => ∃ places : List (Fin m.issues.length),
      places.Nodup ∧ (∀ p, p ∈ places ↔ f.accepts m now m.issues[p] = .ok true) ∧
      places.Pairwise (fun p q => Issue.compareBy f.keys m.issues[q] m.issues[p] ≠ .lt) ∧
      places.Pairwise (fun p q => Issue.compareBy f.keys m.issues[p] m.issues[q] = .eq → p < q) ∧
      select f m now limit =
        .ok ((places.take (min (limit.getD places.length) places.length)).map (m.issues[·])) := by
  split
  · rename_i e hscope
    rw [select, hscope]
    rfl
  · rename_i scope hscope
    refine ⟨places f m scope now, nodup_places f m scope now, fun p => mem_places_iff hscope, ?_, ?_,
      select_eq hscope limit⟩
    all_goals rw [places, Scope.sortKeys_ofFilter? hscope]
    · exact pairwise_mergeSort_ne_lt (comparePlaces f.keys m) _
    · exact pairwise_mergeSort_of_eq (comparePlaces f.keys m) ((List.pairwise_lt_finRange _).filter _)

end Listing

end IssueQuery
