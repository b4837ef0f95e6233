/-
The labels of an issue as a set: no label repeats, and of a group, in any case of its letters, there is
one exclusive label at most. Labels that are added one after the other keep it so; each of them is there
when it has been added, and labels of other groups, or of none, do not notice.
-/
import IssueQuery.Proofs.Issue.Labels

namespace IssueQuery.Issue

/-- No label repeats, and no two exclusive labels have the same group. -/
structure IsLabelSet (labels : List Label) : Prop where
  nodup : labels.Nodup
  exclusive : ∀ l ∈ labels, ∀ l' ∈ labels, l.isExclusive = true → l'.isExclusive = true →
    foldedGroup? l = foldedGroup? l' → l = l'

/-! ## One label more -/

section Added

variable {label l : Label} {labels : List Label}

/-- A label that stays beside a new exclusive one is the same or of another group. -/
theorem eq_of_mem_addLabel (h : IsLabelSet labels) (hl : l ∈ addLabel label labels)
    (hexclusive : label.isExclusive = true) (hother : l.isExclusive = true)
    (hgroup : foldedGroup? l = foldedGroup? label) : l = label := by
  rcases mem_addLabel_iff.1 hl with rfl | ⟨hl, hmem | hkept⟩
  · rfl
  · exact h.exclusive l hl label hmem hother hexclusive hgroup
  · by_contra hne
    exact hkept ⟨hexclusive, Ne.symm hne, hgroup⟩

theorem IsLabelSet.addLabel (h : IsLabelSet labels) (label : Label) : IsLabelSet (addLabel label labels) where
  nodup := by
    by_cases hmem : label ∈ labels
    · rw [addLabel_of_mem hmem]
      exact h.nodup
    · rw [addLabel_of_notMem hmem]
      refine (h.nodup.filter _).append (List.nodup_singleton label) ?_
      rw [List.disjoint_singleton]
      exact fun hfilter => hmem (List.mem_of_mem_filter hfilter)
  exclusive l hl l' hl' hexclusive hexclusive' hgroup := by
    -- a label that comes in is told apart from the others by its group, and those that stay were before
    rcases mem_addLabel_iff.1 hl with rfl | ⟨hmem, -⟩
    · exact (eq_of_mem_addLabel h hl' hexclusive hexclusive' hgroup.symm).symm
    · rcases mem_addLabel_iff.1 hl' with rfl | ⟨hmem', -⟩
      · exact eq_of_mem_addLabel h hl hexclusive' hexclusive hgroup
      · exact h.exclusive l hmem l' hmem' hexclusive hexclusive' hgroup

theorem addLabel_addLabel (label : Label) (labels : List Label) :
    addLabel label (addLabel label labels) = addLabel label labels :=
  addLabel_of_mem (mem_addLabel_iff.2 (.inl rfl))

/-- The labels of other groups are those that were there before, in their order. -/
theorem filter_addLabel (label : Label) (labels : List Label) :
    (addLabel label labels).filter (foldedGroup? · ≠ foldedGroup? label) =
      labels.filter (foldedGroup? · ≠ foldedGroup? label) := by
  by_cases hmem : label ∈ labels
  · rw [addLabel_of_mem hmem]
  · rw [addLabel_of_notMem hmem, List.filter_append, List.filter_filter, List.filter_singleton]
    have hkept : ∀ l ∈ labels, (decide (foldedGroup? l ≠ foldedGroup? label) && decide ¬ label.Displaces l) =
        decide (foldedGroup? l ≠ foldedGroup? label) := by
      intro l _
      have hdisplaces : label.Displaces l → foldedGroup? l = foldedGroup? label := fun h => h.2.2
      by_cases hgroup : foldedGroup? l = foldedGroup? label
      · simp [hgroup]
      · simp [hgroup, mt hdisplaces hgroup]
    rw [List.filter_congr hkept]
    simp

end Added

/-! ## Labels one after the other -/

theorem addLabels_concat (added : List Label) (label : Label) (labels : List Label) :
    addLabels (added ++ [label]) labels = addLabel label (addLabels added labels) := List.foldl_append

theorem IsLabelSet.addLabels {labels : List Label} (h : IsLabelSet labels) (added : List Label) :
    IsLabelSet (addLabels added labels) := by
  induction added generalizing labels with
  | nil => exact h
  | cons label added ih => exact ih (h.addLabel label)

/-- However many labels have been added to a set of labels, when one more is added it is a set again; the
label is there, the labels of other groups are there as before, and the same label once more changes
nothing. A label that is not exclusive displaces nothing, and a label without a group is never displaced. -/
theorem addLabels_concat_spec {labels : List Label} (h : IsLabelSet labels) (earlier : List Label) (label : Label) :
    let before := addLabels earlier labels
    let after := addLabels (earlier ++ [label]) labels
    IsLabelSet after ∧ label ∈ after ∧
      after.filter (foldedGroup? · ≠ foldedGroup? label) = before.filter (foldedGroup? · ≠ foldedGroup? label) ∧
      addLabels (earlier ++ [label, label]) labels = after ∧
      (label.isExclusive = false → after = if label ∈ before then before else before ++ [label]) ∧
      ∀ l ∈ before, l.group? = none → l ∈ after := by
  intro before after
  have hafter : after = addLabel label before := addLabels_concat earlier label labels
  have hagain : addLabels (earlier ++ [label, label]) labels = addLabel label after := by
    rw [List.append_cons, addLabels_concat]
  refine ⟨h.addLabels _, ?_, ?_, ?_, fun hexclusive => ?_, fun l hl hgroup => ?_⟩
  · rw [hafter]
    exact mem_addLabel_iff.2 (.inl rfl)
  · rw [hafter]
    exact filter_addLabel label before
  · rw [hagain, hafter, addLabel_addLabel]
  · rw [hafter, addLabel_of_isExclusive_eq_false hexclusive]
  · rw [hafter]
    exact mem_addLabel_iff.2 (.inr ⟨hl, .inr (Label.not_displaces_of_group?_eq_none hgroup)⟩)

/-- An exclusive label displaces those of its group, whatever their case and delimiter, and no other: neither a
label without a group nor those of other groups, to which one is added that displaces nothing. -/
theorem addLabels_concat_type :
    let labels : List Label := [⟨"Type.bug"⟩, ⟨"area-ui"⟩, ⟨"type-old"⟩, ⟨"urgent"⟩]
    let after : List Label := [⟨"area-ui"⟩, ⟨"urgent"⟩, ⟨"docs"⟩, ⟨"TYPE.feature"⟩]
    IsLabelSet labels ∧ addLabels [⟨"docs"⟩, ⟨"TYPE.feature"⟩] labels = after ∧ IsLabelSet after ∧
      ⟨"urgent"⟩ ∈ after ∧
      addLabels [⟨"docs"⟩, ⟨"TYPE.feature"⟩, ⟨"area-cli"⟩] labels = after ++ [⟨"area-cli"⟩] := by
  intro labels after
  have hset : IsLabelSet labels := ⟨by decide +kernel, by decide +kernel⟩
  have hafter : addLabels [⟨"docs"⟩, ⟨"TYPE.feature"⟩] labels = after := by decide +kernel
  obtain ⟨hafterSet, -, -, -, -, hstays⟩ := addLabels_concat_spec hset [⟨"docs"⟩] ⟨"TYPE.feature"⟩
  obtain ⟨-, -, -, -, hplain, -⟩ := addLabels_concat_spec hset [⟨"docs"⟩, ⟨"TYPE.feature"⟩] ⟨"area-cli"⟩
  have hurgent := hstays ⟨"urgent"⟩ (by decide +kernel) (by decide +kernel)
  have hcli := hplain (by decide +kernel)
  rw [List.cons_append, List.nil_append, hafter] at hafterSet hurgent
  rw [hafter, if_neg (by decide +kernel)] at hcli
  exact ⟨hset, hafter, hafterSet, hurgent, hcli⟩

end IssueQuery.Issue
