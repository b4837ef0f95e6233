/-
The order of issues under sort keys. A key compares issues by what it reads off them, and keys are tried
one after the other; so any keys compare issues in a transitive way, and issues that no key tells apart
keep their places.
-/
import IssueQuery.Filter.Order
import Mathlib.Data.List.Sort

namespace IssueQuery

open Std (TransCmp TransOrd OrientedCmp)

/-! ## Comparisons -/

section Comparisons

variable {α β : Type}

/-- Values that are compared by what a function reads off them. -/
theorem transCmp_comap (cmp : β → β → Ordering) [TransCmp cmp] (f : α → β) : TransCmp fun a b => cmp (f a) (f b) where
  eq_swap := OrientedCmp.eq_swap
  isLE_trans := TransCmp.isLE_trans

instance [Ord α] [TransOrd α] : TransCmp (compareMissingLast (α := α)) where
  eq_swap {a b} := by
    cases a <;> cases b
    case some.some a b => exact (OrientedCmp.eq_swap : compare a b = (compare b a).swap)
    all_goals rfl
  isLE_trans {a b c} hab hbc := by
    cases a <;> cases b <;> cases c
    case some.some.some a b c =>
      have htrans : (compare a b).isLE = true → (compare b c).isLE = true → (compare a c).isLE = true :=
        TransCmp.isLE_trans
      exact htrans hab hbc
    -- a missing value is not before one that is there
    all_goals first
      | rfl
      | contradiction

namespace SortKey

theorem transCmp_directed (cmp : α → α → Ordering) [TransCmp cmp] (descending : Bool) :
    TransCmp fun a b => directed descending (cmp a b) := by
  cases descending with
  | false => exact inferInstanceAs (TransCmp cmp)
  | true =>
    have hswap : (fun a b => directed true (cmp a b)) = fun a b => cmp b a := by
      funext a b
      exact OrientedCmp.eq_swap.symm
    rw [hswap]
    exact TransCmp.opposite

end SortKey

end Comparisons

/-! ## Sort keys -/

namespace SortKey

/-- The comparison of the names of labels in a group. Where there are none is the end in both
directions. -/
def compareNames (descending : Bool) : List String → List String → Ordering :=
  compareLex (compareOn List.isEmpty) fun as bs =>
    directed descending (compareLex (compareOn List.length) compare as bs)

theorem compareInGroup_eq (group : String) (descending : Bool) (a b : Issue) :
    compareInGroup group descending a b = compareNames descending (a.namesInGroup group) (b.namesInGroup group) := by
  unfold compareInGroup
  cases a.namesInGroup group <;> cases b.namesInGroup group
  case nil.nil => cases descending <;> rfl
  all_goals rfl

instance (descending : Bool) : TransCmp (compareNames descending) :=
  have := transCmp_directed (compareLex (compareOn List.length) (compare (α := List String))) descending
  inferInstanceAs (TransCmp (compareLex _ _))

theorem transCmp_compareInGroup (group : String) (descending : Bool) :
    TransCmp (compareInGroup group descending) := by
  have heq : compareInGroup group descending =
      fun a b => compareNames descending (a.namesInGroup group) (b.namesInGroup group) := by
    funext a b
    exact compareInGroup_eq group descending a b
  rw [heq]
  exact transCmp_comap _ _

theorem transCmp_field {name : String} {comparison : Issue → Issue → Ordering} (h : field? name = some comparison) :
    TransCmp comparison := by
  unfold field? at h
  split at h
  case h_9 => cases h
  all_goals
    cases h
    exact transCmp_comap _ _

instance (k : SortKey) : TransCmp k.compareIssues := by
  unfold compareIssues
  cases h : field? (Text.lower k.key) with
  | some comparison =>
    have := transCmp_field h
    exact transCmp_directed comparison k.descending
  | none => exact transCmp_compareInGroup _ _

end SortKey

namespace Issue

instance (keys : List SortKey) : TransCmp (compareBy keys) := by
  induction keys with
  | nil => exact { eq_swap := rfl, isLE_trans := fun _ _ => rfl }
  | cons k keys ih => exact inferInstanceAs (TransCmp (compareLex k.compareIssues (compareBy keys)))

end Issue

/-! ## Stable sorting -/

section Sorting

variable {α : Type} {a b : α} {l : List α}

theorem not_sublist_swap (hnodup : l.Nodup) (h : [a, b].Sublist l) : ¬ [b, a].Sublist l := by
  induction l with
  | nil => cases h
  | cons c l ih =>
    rw [List.nodup_cons] at hnodup
    intro hswap
    cases h with
    | cons _ h =>
      cases hswap with
      | cons _ hswap => exact ih hnodup.2 h hswap
      | cons_cons _ hswap => exact hnodup.1 (h.subset (by simp))
    | cons_cons _ h =>
      cases hswap with
      | cons _ hswap => exact hnodup.1 (hswap.subset (by simp))
      | cons_cons _ hswap => exact hnodup.1 (h.subset (by simp))

variable (cmp : α → α → Ordering) [TransCmp cmp]

theorem isLE_total (a b : α) : ((cmp a b).isLE || (cmp b a).isLE) = true := by
  have hswap : cmp b a = (cmp a b).swap := OrientedCmp.eq_swap
  rw [hswap]
  cases cmp a b <;> rfl

/-- After sorting, nothing is less than what stands before it. -/
theorem pairwise_mergeSort_ne_lt (l : List α) :
    (l.mergeSort fun a b => (cmp a b).isLE).Pairwise fun a b => cmp b a ≠ .lt := by
  have hsorted := List.pairwise_mergeSort (fun _ _ _ => TransCmp.isLE_trans) (isLE_total cmp) l
  exact hsorted.imp OrientedCmp.not_lt_of_isLE

/-- What compares equal stands after sorting as it stood before. -/
theorem pairwise_mergeSort_of_eq [LinearOrder α] (h : l.Pairwise (· < ·)) :
    (l.mergeSort fun a b => (cmp a b).isLE).Pairwise fun a b => cmp a b = .eq → a < b := by
  have hnodup : l.Nodup := h.imp ne_of_lt
  have hsorted : (l.mergeSort fun a b => (cmp a b).isLE).Nodup := (List.mergeSort_perm l _).nodup_iff.2 hnodup
  rw [List.pairwise_iff_forall_sublist]
  intro a b hsublist heq
  have hne : [a, b].Nodup := hsorted.sublist hsublist
  have hsubset : [b, a] ⊆ l := by
    have := hsublist.subset
    simpa [and_comm] using this
  by_contra hlt
  -- the two stood the other way round, and the sort has not parted them
  have hba : b < a := lt_of_le_of_ne (not_lt.1 hlt) (by simpa [eq_comm] using hne)
  have hbefore : [b, a].Sublist l := List.sublist_of_subperm_of_pairwise (r := (· < ·))
    (List.subperm_of_subset (by simpa using hba.ne) hsubset) (by simpa using hba) h
  have hle : (cmp b a).isLE = true := by rw [OrientedCmp.eq_symm heq]; rfl
  have hafter := List.pair_sublist_mergeSort (fun _ _ _ => TransCmp.isLE_trans) (isLE_total cmp) hle hbefore
  exact not_sublist_swap hsorted hsublist hafter

end Sorting

end IssueQuery
