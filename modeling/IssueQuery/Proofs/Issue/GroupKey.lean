/-
Sorting by a label group under its own name. The key is put into lower case, all of it, and is then compared
with the groups of labels by the case of ASCII letters alone; so the labels that have the very group of the
key are found if the group is in lower case beyond ASCII, and are missed otherwise.
-/
import IssueQuery.Proofs.Filter.Quoting
import IssueQuery.Proofs.Issue.Direction
import IssueQuery.Proofs.Text.Folding

namespace IssueQuery

open Text (IsLowerBeyondAscii sameAsciiFolded)
open Std (OrientedCmp)

/-- An issue with the labels and nothing else to sort it by. -/
def Issue.ofLabels (labels : List Label) : Issue := { Issue.ofText "" with labels }

/-! ## Names of groups -/

/-- The text can be the group of a label. -/
def GroupedName.IsGroup (g : String) : Prop := g ≠ "" ∧ ∀ c ∈ g.toList, isDelimiter c = false

theorem GroupedName.isGroup_iff {g : String} :
    (!g.toList.isEmpty && g.toList.all (!isDelimiter ·)) = true ↔ IsGroup g := by
  simp [IsGroup]

instance (g : String) : Decidable (GroupedName.IsGroup g) := decidable_of_iff _ GroupedName.isGroup_iff

/-- A group, a delimiter and a name make a label of the group. -/
theorem Label.group?_append {g : String} (hg : GroupedName.IsGroup g) {c : Char}
    (hc : GroupedName.isDelimiter c = true) (name : String) :
    (⟨g ++ String.singleton c ++ name⟩ : Label).group? = some g := by
  have hgroup : ∀ d ∈ g.toList, (!GroupedName.isDelimiter d) = true := fun d hd => by rw [hg.2 d hd]; rfl
  have hchars : (g ++ String.singleton c ++ name).toList = g.toList ++ c :: name.toList := by simp
  have htake : (g.toList ++ c :: name.toList).takeWhile (!GroupedName.isDelimiter ·) = g.toList := by
    rw [List.takeWhile_append_of_pos hgroup, List.takeWhile_cons, hc]
    simp
  have hdrop : (g.toList ++ c :: name.toList).dropWhile (!GroupedName.isDelimiter ·) = c :: name.toList := by
    rw [List.dropWhile_append_of_pos hgroup, List.dropWhile_cons, hc]
    simp
  obtain ⟨d, group, hcons⟩ := List.exists_cons_of_ne_nil (mt String.toList_eq_nil_iff.1 hg.1)
  rw [group?, grouped?, GroupedName.ofText?, hchars, htake, hdrop, hcons]
  simp only [Option.map_some, ← hcons, String.ofList_toList]

namespace SortKey

/-- Without a full stop at its end the whole key is the name of a group. -/
theorem groupName_eq_self {key : String} (h : '.' ∉ key.toList) : groupName key = key := by
  unfold groupName
  split
  · rename_i rest hrest
    have hmem : '.' ∈ key.toList.reverse := by rw [hrest]; exact List.mem_cons_self
    exact absurd (List.mem_reverse.1 hmem) h
  · rfl

/-- Lower case makes no full stop. -/
theorem groupName_lower {g : String} (hg : GroupedName.IsGroup g) : groupName (Text.lower g) = Text.lower g := by
  refine groupName_eq_self fun hmem => ?_
  rw [Text.toList_lower_eq] at hmem
  have hmem' : '.' ∈ g.toList := Text.mem_of_mem_lowerBetween (by decide) (by decide) hmem
  exact absurd (hg.2 '.' hmem') (by decide)

/-! ## Issues before issues -/

variable {g group : String} {a b : Issue}

/-- An issue without a label in the group is before no other. -/
theorem compareInGroup_ne_lt (ha : ¬ a.HasLabelIn group) (descending : Bool) :
    compareInGroup group descending a b ≠ .lt := by
  have := transCmp_compareInGroup group descending
  by_cases hb : b.HasLabelIn group
  · have hswap : compareInGroup group descending a b = (compareInGroup group descending b a).swap :=
      OrientedCmp.eq_swap
    rw [hswap, (compareInGroup_missing ha descending).1 hb]
    exact nofun
  · rw [(compareInGroup_missing hb descending).2 ha]
    exact nofun

/-- The issues that come before others in both directions have a label in the group, and the others none. -/
theorem forall_compareInGroup_eq_lt_iff : (∀ descending, compareInGroup group descending a b = .lt) ↔
    a.HasLabelIn group ∧ ¬ b.HasLabelIn group := by
  constructor
  · intro h
    have ha : a.HasLabelIn group := by
      by_contra ha
      exact compareInGroup_ne_lt ha false (h false)
    refine ⟨ha, fun hb => ?_⟩
    have hswap := compareInGroup_descending_iff.2 (iff_of_true ha hb)
    rw [h true, h false] at hswap
    cases hswap
  · exact fun ⟨ha, hb⟩ descending => (compareInGroup_missing hb descending).1 ha

/-! ## Groups by their own name -/

/-- The key of the group's name puts an issue with a label of the very group before an issue that has no
label of the same group, ascending and descending. -/
def SortsByOwnName (same : String → String → Prop) (g : String) : Prop :=
  ∀ a b : Issue, (∃ l ∈ a.labels, l.group? = some g) → (∀ l ∈ b.labels, ∀ h, l.group? = some h → ¬ same h g) →
    ∀ descending, compareIssues ⟨g, descending⟩ a b = .lt

theorem forall_compareIssues_eq_lt_iff (hg : GroupedName.IsGroup g) (hkey : Text.lower g ∉ fieldNames) :
    (∀ descending, compareIssues ⟨g, descending⟩ a b = .lt) ↔
      a.HasLabelIn (Text.lower g) ∧ ¬ b.HasLabelIn (Text.lower g) := by
  simp only [compareIssues_of_notMem hkey, groupName_lower hg]
  exact forall_compareInGroup_eq_lt_iff

/-- The labels of one group are found under its lower case only if that differs in ASCII letters alone. -/
theorem isLowerBeyondAscii_of_hasLabelIn (hown : ∀ l ∈ a.labels, ∀ h, l.group? = some h → h = g)
    (h : a.HasLabelIn (Text.lower g)) : IsLowerBeyondAscii g := by
  obtain ⟨l, hl, h, hgroup, hsame⟩ := h
  rw [hown l hl h hgroup] at hsame
  exact Text.sameAsciiFolded_lower_iff.1 hsame

/-- Under any notion of the same group that takes groups for one if they are so up to the case of ASCII
letters. -/
theorem sortsByOwnName_iff_isLowerBeyondAscii {same : String → String → Prop}
    (hsame : ∀ h, sameAsciiFolded h g = true → same h g) (hg : GroupedName.IsGroup g)
    (hkey : Text.lower g ∉ fieldNames) : SortsByOwnName same g ↔ IsLowerBeyondAscii g := by
  unfold SortsByOwnName
  simp only [forall_compareIssues_eq_lt_iff hg hkey]
  constructor
  · intro h
    -- one label, of the very group, against none at all
    let label : Label := ⟨g ++ String.singleton '-' ++ "x"⟩
    have hlabel : label.group? = some g := Label.group?_append hg (by decide) "x"
    have hown : ∀ l ∈ (Issue.ofLabels [label]).labels, ∀ h, l.group? = some h → h = g := by
      rintro l hl h hgroup
      rw [List.mem_singleton.1 hl, hlabel] at hgroup
      exact (Option.some.inj hgroup).symm
    have hbefore := h (.ofLabels [label]) (.ofLabels []) ⟨label, List.mem_singleton_self _, hlabel⟩ fun _ => nofun
    exact isLowerBeyondAscii_of_hasLabelIn hown hbefore.1
  · intro hlower a b ⟨l, hl, hgroup⟩ hother
    have hfold : sameAsciiFolded (Text.lower g) g = true := Text.sameAsciiFolded_lower_iff.2 hlower
    refine ⟨⟨l, hl, g, hgroup, hfold⟩, ?_⟩
    rintro ⟨l', hl', h, hgroup', hfold'⟩
    refine hother l' hl' h hgroup' (hsame h ?_)
    rw [sameAsciiFolded, beq_iff_eq] at hfold hfold' ⊢
    exact hfold'.symm.trans hfold

/-- A group can be sorted by its own name exactly if it is in lower case beyond ASCII, whether the other
issues have no label of the group up to the case of ASCII letters or of any letters. If it cannot, an issue
whose labels are in that group alone comes before no other in either direction. -/
theorem sortsByOwnName_iff (hg : GroupedName.IsGroup g) (hkey : Text.lower g ∉ fieldNames) :
    (SortsByOwnName (fun h g => sameAsciiFolded h g = true) g ↔ IsLowerBeyondAscii g) ∧
    (SortsByOwnName (fun h g => Text.lower h = Text.lower g) g ↔ IsLowerBeyondAscii g) ∧
    (¬ IsLowerBeyondAscii g → ∀ a b : Issue, (∀ l ∈ a.labels, ∀ h, l.group? = some h → h = g) →
      ∀ descending, compareIssues ⟨g, descending⟩ a b ≠ .lt) := by
  refine ⟨sortsByOwnName_iff_isLowerBeyondAscii (fun _ => id) hg hkey,
    sortsByOwnName_iff_isLowerBeyondAscii (fun _ => Text.lower_eq_of_sameAsciiFolded) hg hkey, ?_⟩
  intro hupper a b hown descending
  rw [compareIssues_of_notMem hkey, groupName_lower hg]
  exact compareInGroup_ne_lt (fun h => hupper (isLowerBeyondAscii_of_hasLabelIn hown h)) descending

/-- Neither a capital of ASCII nor a small letter beyond it hides the labels of a group. -/
theorem sortsByOwnName_accented :
    GroupedName.IsGroup "Priorité" ∧ Text.lower "Priorité" ∉ fieldNames ∧
      SortsByOwnName (fun h g => Text.lower h = Text.lower g) "Priorité" := by
  have hg : GroupedName.IsGroup "Priorité" := by decide
  have hkey : Text.lower "Priorité" ∉ fieldNames := by decide
  exact ⟨hg, hkey, (sortsByOwnName_iff hg hkey).2.1.2 (by decide)⟩

/-- The key of a group that begins with a capital beyond ASCII does not tell an issue in the group from one
without labels. -/
theorem exists_compareIssues_own_name_eq : ∃ g, GroupedName.IsGroup g ∧ Text.lower g ∉ fieldNames ∧
    ∃ a b : Issue, (∃ l ∈ a.labels, l.group? = some g) ∧ b.labels = [] ∧
      ∀ descending, compareIssues ⟨g, descending⟩ a b = .eq := by
  refine ⟨"Ärea", by decide, by decide, .ofLabels [⟨"Ärea.ui"⟩], .ofLabels [],
    ⟨⟨"Ärea.ui"⟩, List.mem_singleton_self _, by decide⟩, rfl, ?_⟩
  decide +kernel

end SortKey

end IssueQuery
