/-
The two directions of a sort key. A key for a field sorts by that field, and runs backwards as it runs
forwards; a key for a label group does so among the issues that have a label in the group, and the others are at
the end in both directions. Whatever the keys and their directions, together they put the issues into one order.
-/
import IssueQuery.Proofs.Issue.Order

namespace IssueQuery

open Std (TransCmp OrientedCmp)

/-! ## Keys and groups -/

namespace Issue

/-- The issue has a label in the group, in any case of its ASCII letters. -/
def HasLabelIn (group : String) (i : Issue) : Prop :=
  ∃ l ∈ i.labels, ∃ g, l.group? = some g ∧ Text.sameAsciiFolded group g = true

theorem namesInGroup_eq_nil_iff {group : String} {i : Issue} : i.namesInGroup group = [] ↔ ¬ i.HasLabelIn group := by
  unfold namesInGroup HasLabelIn
  rw [← List.length_eq_zero_iff, List.length_mergeSort, List.length_eq_zero_iff, List.map_eq_nil_iff,
    List.filter_eq_nil_iff]
  simp [Option.any_eq_true]

end Issue

namespace SortKey

/-- The keys that stand for a field of issues; any other names a label group. -/
def fieldNames : List String := ["id", "title", "comments", "updated", "date", "created", "milestone", "assignee"]

theorem isSome_field?_iff {name : String} : (field? name).isSome = true ↔ name ∈ fieldNames := by
  unfold field?
  split <;> simp_all [fieldNames]

/-! ## Directions -/

variable {key : String} {a b : Issue}

theorem compareIssues_descending_of_mem (h : Text.lower key ∈ fieldNames) :
    compareIssues ⟨key, true⟩ a b = (compareIssues ⟨key, false⟩ a b).swap := by
  obtain ⟨comparison, hcomparison⟩ := Option.isSome_iff_exists.1 (isSome_field?_iff.2 h)
  rw [compareIssues, compareIssues, hcomparison]
  rfl

/-- One issue is less than another by a key for a field if it precedes it there, or follows it where the key
runs backwards. -/
theorem compareIssues_eq_lt_iff (h : Text.lower key ∈ fieldNames) (descending : Bool) :
    compareIssues ⟨key, descending⟩ a b = .lt ↔
      if descending then Precedes (Text.lower key) b a else Precedes (Text.lower key) a b := by
  obtain ⟨comparison, hcomparison⟩ := Option.isSome_iff_exists.1 (isSome_field?_iff.2 h)
  rw [compareIssues, hcomparison]
  cases descending with
  | false => exact field?_eq_lt_iff hcomparison a b
  | true =>
    have := transCmp_field hcomparison
    have hswap : comparison b a = (comparison a b).swap := OrientedCmp.eq_swap
    rw [if_pos rfl, ← field?_eq_lt_iff hcomparison, hswap]
    rfl

theorem compareIssues_of_notMem (h : Text.lower key ∉ fieldNames) (descending : Bool) :
    compareIssues ⟨key, descending⟩ a b = compareInGroup (groupName (Text.lower key)) descending a b := by
  have hnone : field? (Text.lower key) = none := Option.not_isSome_iff_eq_none.1 (mt isSome_field?_iff.1 h)
  rw [compareIssues, hnone]

variable {group : String}

/-- The reverse of a comparison by labels, among issues that both have some or both have none. -/
theorem compareInGroup_descending_iff : compareInGroup group true a b = (compareInGroup group false a b).swap ↔
    (a.HasLabelIn group ↔ b.HasLabelIn group) := by
  rw [← not_iff_not (a := a.HasLabelIn group), ← Issue.namesInGroup_eq_nil_iff, ← Issue.namesInGroup_eq_nil_iff]
  unfold compareInGroup
  cases a.namesInGroup group <;> cases b.namesInGroup group <;> simp [directed]

theorem compareInGroup_missing (h : ¬ b.HasLabelIn group) (descending : Bool) :
    (a.HasLabelIn group → compareInGroup group descending a b = .lt) ∧
      (¬ a.HasLabelIn group → compareInGroup group descending a b = .eq) := by
  rw [← Issue.namesInGroup_eq_nil_iff] at h
  rw [← not_not (a := a.HasLabelIn group), ← Issue.namesInGroup_eq_nil_iff]
  unfold compareInGroup
  rw [h]
  cases a.namesInGroup group <;> simp

end SortKey

/-! ## Many keys -/

namespace Issue

/-- The first key that tells the issues apart decides. -/
theorem compareBy_eq_find? (keys : List SortKey) (a b : Issue) :
    compareBy keys a b = ((keys.map fun k => k.compareIssues a b).find? (· ≠ .eq)).getD .eq := by
  induction keys with
  | nil => rfl
  | cons k keys ih =>
    rw [List.map_cons, List.find?_cons]
    change (k.compareIssues a b).then (compareBy keys a b) = _
    rw [ih]
    cases k.compareIssues a b <;> rfl

/-- Sorted by a field, no issue stands behind one that follows it there; by a key that runs backwards, none
stands behind one that precedes it. -/
theorem pairwise_sortBy_field {key : String} (h : Text.lower key ∈ SortKey.fieldNames) (descending : Bool)
    (issues : List Issue) : (sortBy [⟨key, descending⟩] issues).Pairwise fun a b =>
      if descending then ¬ SortKey.Precedes (Text.lower key) a b else ¬ SortKey.Precedes (Text.lower key) b a := by
  refine (pairwise_mergeSort_ne_lt (compareBy [⟨key, descending⟩]) issues).imp fun {a b} hne => ?_
  have hkey : compareBy [⟨key, descending⟩] b a = SortKey.compareIssues ⟨key, descending⟩ b a := by
    change (SortKey.compareIssues ⟨key, descending⟩ b a).then .eq = _
    cases SortKey.compareIssues ⟨key, descending⟩ b a <;> rfl
  rw [hkey, Ne, SortKey.compareIssues_eq_lt_iff h] at hne
  cases descending <;> exact hne

/-- Any keys compare issues by the first of them that tells the issues apart, and put them into one order:
the comparison the other way round is the reverse, not being greater is transitive, and issues that are
equal compare alike with any other. Descending, a key for a field gives the reverse of what it gives
ascending. A key for a label group does so for issues that both have a label in the group or both have
none, and puts an issue that has one before an issue that has none in either direction. -/
theorem compareBy_spec (keys : List SortKey) (key : String) (a b c : Issue) :
    let group := SortKey.groupName (Text.lower key)
    let byKey (descending : Bool) := SortKey.compareIssues ⟨key, descending⟩ a b
    (compareBy keys a b = ((keys.map fun k => k.compareIssues a b).find? (· ≠ .eq)).getD .eq ∧
      compareBy keys a b = (compareBy keys b a).swap ∧
      (compareBy keys a b ≠ .gt → compareBy keys b c ≠ .gt → compareBy keys a c ≠ .gt) ∧
      (compareBy keys a b = .eq → compareBy keys a c = compareBy keys b c)) ∧
    if Text.lower key ∈ SortKey.fieldNames then byKey true = (byKey false).swap
    else (byKey true = (byKey false).swap ↔ (a.HasLabelIn group ↔ b.HasLabelIn group)) ∧
      (¬ b.HasLabelIn group → ∀ descending, (a.HasLabelIn group → byKey descending = .lt) ∧
        (¬ a.HasLabelIn group → byKey descending = .eq)) := by
  intro group byKey
  refine ⟨⟨compareBy_eq_find? keys a b, OrientedCmp.eq_swap, ?_, TransCmp.congr_left⟩, ?_⟩
  · simp only [Ordering.ne_gt_iff_isLE]
    exact TransCmp.isLE_trans
  · split
    · rename_i hfield
      exact SortKey.compareIssues_descending_of_mem hfield
    · rename_i hgroup
      have hkey (descending : Bool) : byKey descending = SortKey.compareInGroup group descending a b :=
        SortKey.compareIssues_of_notMem hgroup descending
      simp only [hkey]
      exact ⟨SortKey.compareInGroup_descending_iff, SortKey.compareInGroup_missing⟩

/-- Labels of one name and group, of which one is exclusive, make issues equal; and an issue without a
label of the group comes last although the key runs backwards. -/
theorem compareBy_priority :
    let now : Instant := ⟨⟨2024, 1, 1, by decide⟩, 0, 0, by decide⟩
    let issue (id : UInt32) (label : String) : Issue :=
      ⟨id, "Index", "", "ada", now, now, .opened, .issue, none, none, [⟨label⟩], none, 0⟩
    let keys : List SortKey := [⟨"Priority.", true⟩, ⟨"comments", false⟩]
    let exclusive := issue 1 "priority.low"
    let other := issue 2 "PRIORITY-Low"
    let missing := issue 3 "docs"
    compareBy keys exclusive other = .eq ∧ compareBy keys other missing ≠ .gt ∧
      compareBy keys exclusive missing ≠ .gt ∧ compareBy keys exclusive missing = compareBy keys other missing ∧
      ∀ descending, SortKey.compareIssues ⟨"Priority.", descending⟩ exclusive missing = .lt := by
  intro now issue keys exclusive other missing
  have heq : compareBy keys exclusive other = .eq := by decide +kernel
  have hne : compareBy keys exclusive other ≠ .gt := by rw [heq]; exact nofun
  have hlast : compareBy keys other missing ≠ .gt := by decide +kernel
  obtain ⟨⟨-, -, htrans, hcongr⟩, -⟩ := compareBy_spec keys "Priority." exclusive other missing
  refine ⟨heq, hlast, htrans hne hlast, hcongr heq, fun descending => ?_⟩
  have hkey : Text.lower "Priority." ∉ SortKey.fieldNames := by decide
  have hgroup : SortKey.groupName (Text.lower "Priority.") = "priority" := by decide
  have hlabelled : exclusive.HasLabelIn "priority" :=
    ⟨_, List.mem_singleton_self _, "priority", by decide, by decide⟩
  have hmissing : ¬ missing.HasLabelIn "priority" := by
    rintro ⟨l, hl, g, hg, -⟩
    obtain rfl := List.mem_singleton.1 hl
    have hnone : (⟨"docs"⟩ : Label).group? = none := by decide
    rw [hnone] at hg
    cases hg
  obtain ⟨-, hgroups⟩ := compareBy_spec keys "Priority." exclusive missing missing
  rw [if_neg hkey, hgroup] at hgroups
  exact (hgroups.2 hmissing descending).1 hlabelled

end Issue

end IssueQuery
