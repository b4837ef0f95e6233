/-
Applying a filter again. The model selects the changes that it selected before the first application,
and all of them hold already but for labels that later ones have displaced; so that labels are the
only thing that a second application can change.
-/
import IssueQuery.Proofs.Filter.Changes
import IssueQuery.Proofs.Project.Applications

namespace IssueQuery

/-! ## Changes selected again -/

section Update

variable {m : Model} {id : UInt32} {before after : Issue}

theorem Qualifier.Selects.update {q : Qualifier} {c : Change} (h : q.Selects m id c)
    (hbefore : m.issue? id = some before) (hid : after.id = id) : q.Selects (m.update id fun _ => after) id c := by
  cases h with
  | nothing hk => exact .nothing hk
  | milestone hk hquery hx => exact .milestone hk hquery hx
  | label hk hquery hl => exact .label hk hquery hl
  | assignee hk hquery hu => exact .assignee hk hquery hu
  | state hk hword hs => exact .state hk hword hs
  | numberedParent hk hquery hnumber hadmits =>
    exact .numberedParent hk hquery hnumber (hadmits.update hbefore hid)
  | titledParent hk hquery hnumber htarget hadmits =>
    have hothers : (m.update id fun _ => after).issues.filter (·.id != id) = m.issues.filter (·.id != id) :=
      Model.filter_updateFirst hid
    exact .titledParent hk hquery hnumber (hothers.symm ▸ htarget) (hadmits.update hbefore hid)

/-- A change of the issue does not change what is selected for it. -/
theorem Filter.Selects.update {f : Filter} {cs : List Change} (h : f.Selects m id cs)
    (hbefore : m.issue? id = some before) (hid : after.id = id) : f.Selects (m.update id fun _ => after) id cs := by
  induction h with
  | leaf hc => exact .leaf (hc.update hbefore hid)
  | and _ _ ihl ihr => exact .and ihl ihr

end Update

/-! ## Labels -/

/-- The label that the qualifier asks for, if it asks for one that is in the model. -/
def Qualifier.labelIn? (q : Qualifier) (m : Model) : Option Label :=
  if q.kind = .label then
    q.content.asText?.bind fun query => (resolve "labels" query (·.fullName) m.labels).toOption
  else none

/-- The labels that the filter asks for, from left to right. -/
def Filter.labelsIn (f : Filter) (m : Model) : List Label := f.qualifiers.filterMap (·.labelIn? m)

theorem Qualifier.Selects.label?_eq {m : Model} {id : UInt32} {q : Qualifier} {c : Change} (h : q.Selects m id c) :
    c.label? = q.labelIn? m := by
  unfold labelIn?
  by_cases hk : q.kind = .label
  · obtain ⟨query, l, rfl, hquery, hl⟩ := h.exists_label hk
    rw [if_pos hk, hquery, Option.bind_some, hl]
    rfl
  · rw [if_neg hk]
    exact Option.not_isSome_iff_eq_none.1 (mt h.isSome_label?.1 hk)

theorem Filter.Selects.labels_eq {m : Model} {id : UInt32} {f : Filter} {cs : List Change} (h : f.Selects m id cs) :
    cs.filterMap Change.label? = f.labelsIn m := by
  unfold labelsIn
  induction h with
  | leaf hc => simp [qualifiers, List.filterMap_cons, hc.label?_eq]
  | and _ _ ihl ihr => rw [qualifiers, List.filterMap_append, List.filterMap_append, ihl, ihr]

/-- What an applicable filter has set holds in the end, labels apart. -/
theorem Filter.Selects.holds_makeAll_of_label? {m : Model} {id : UInt32} {f : Filter} {cs : List Change}
    (h : f.Selects m id cs) (happlicable : f.isApplicable = true) (i : Issue) :
    ∀ c ∈ cs, c.label? = none → c.Holds (Change.makeAll cs i) := by
  refine Change.forall_holds_makeAll ((h.pairwise_label_of_undoes happlicable).imp ?_) i
  intro c c' hlabel hnone hundoes
  rw [Option.isSome_iff_ne_none] at hlabel
  exact hlabel hundoes hnone

/-- Labels that are not displaced by later ones are there in the end. -/
theorem Filter.Selects.labelsIn_subset {m : Model} {id : UInt32} {f : Filter} {cs : List Change}
    (h : f.Selects m id cs) (happlicable : f.isApplicable = true)
    (hkept : (f.labelsIn m).Pairwise fun l l' => ¬ l'.Displaces l) (i : Issue) :
    f.labelsIn m ⊆ (Change.makeAll cs i).labels := by
  rw [← h.labels_eq] at hkept ⊢
  intro l hl
  obtain ⟨c, hc, hlabel⟩ := List.mem_filterMap.1 hl
  have hheld := Change.holds_makeAll (h.pairwise_not_undoes happlicable hkept) hc i
  cases c <;> cases hlabel
  exact hheld

/-- Labels that are there already change nothing. -/
theorem Issue.addLabels_of_subset {added labels : List Label} (h : added ⊆ labels) :
    addLabels added labels = labels := by
  induction added with
  | nil => rfl
  | cons l added ih =>
    rw [List.cons_subset] at h
    rw [addLabels, List.foldl_cons, addLabel_of_mem h.1]
    exact ih h.2

/-! ## Applications -/

/-- What it comes to to give an issue labels. -/
def Outcome.ofLabels (labels : List Label) (i : Issue) : Outcome :=
  if labels = i.labels then .unchanged else .updated { i with labels := labels }

namespace Model

variable {m : Model} {id : UInt32} {f : Filter} {a : Application} {outcome : Outcome}

/-- A committed application puts in the issue with the changes that the filter selects, and the filter
selects the same once more. -/
theorem exists_selects_of_perform (h : m.applyFilter a.id a.filter = .ok outcome) (hcommits : a.commits = true) :
    ∃ before cs, a.filter.Selects m a.id cs ∧ a.filter.Selects (m.perform a).2 a.id cs ∧
      (m.perform a).2.issue? a.id = some (Change.makeAll cs before) ∧
      (Change.makeAll cs before = before ∨ ∃ scope, Scope.ofFilter? a.filter = .ok scope) := by
  rw [perform_of_applyFilter h hcommits]
  obtain ⟨-, -, before, after, hbefore, hafter, hcases⟩ := applyFilter_eq_ok_iff.1 h
  have hid := id_of_issue? hbefore
  obtain ⟨cs, hselects, rfl⟩ := Filter.apply_eq_ok_iff.1 hafter
  rw [hid] at hselects
  refine ⟨before, cs, hselects, ?_⟩
  rcases hcases with ⟨hsame, rfl⟩ | ⟨-, hscope, rfl⟩
  · exact ⟨hselects, hsame.symm ▸ hbefore, .inl hsame⟩
  · have hid' := (Change.makeAll_id cs before).trans hid
    refine ⟨hselects.update hbefore hid', ?_, .inr hscope⟩
    rw [Outcome.commit, issue?_update hbefore hid', if_pos rfl]

/-- Where all selected changes hold but for labels, the application gives the issue the labels. -/
theorem applyFilter_of_holds {i : Issue} {cs : List Change} (hempty : f.isEmpty = false)
    (happlicable : f.isApplicable = true) (hissue : m.issue? id = some i) (hselects : f.Selects m id cs)
    (hholds : ∀ c ∈ cs, c.label? = none → c.Holds i)
    (hscope : Change.makeAll cs i = i ∨ ∃ scope, Scope.ofFilter? f = .ok scope) :
    m.applyFilter id f = .ok (.ofLabels (Issue.addLabels (f.labelsIn m) i.labels) i) := by
  have hmade := Change.makeAll_of_holds hholds
  rw [hselects.labels_eq] at hmade
  rw [hmade] at hscope
  have happly : f.apply m i = .ok { i with labels := Issue.addLabels (f.labelsIn m) i.labels } :=
    Filter.apply_eq_ok_iff.2 ⟨cs, (id_of_issue? hissue).symm ▸ hselects, hmade.symm⟩
  refine applyFilter_eq_ok_iff.2 ⟨hempty, happlicable, i, _, hissue, happly, ?_⟩
  unfold Outcome.ofLabels
  by_cases hsame : Issue.addLabels (f.labelsIn m) i.labels = i.labels
  · exact .inl ⟨by rw [hsame], if_pos hsame⟩
  · have hchanged : { i with labels := Issue.addLabels (f.labelsIn m) i.labels } ≠ i :=
      fun h => hsame (congrArg Issue.labels h)
    exact .inr ⟨hchanged, hscope.resolve_left hchanged, if_neg hsame⟩

/-- After a committed application, the same one gives the issue the labels of the filter once more and
does nothing else; and where no label displaces one before it, it does nothing at all. -/
theorem perform_again (hok : (m.perform a).1 = .ok outcome) (hcommits : a.commits = true) :
    ∃ i again, (m.perform a).2.issue? a.id = some i ∧
      again = Outcome.ofLabels (Issue.addLabels (a.filter.labelsIn m) i.labels) i ∧
      (m.perform a).2.perform a = (.ok again, again.commit (m.perform a).2 a.id) ∧
      ((a.filter.labelsIn m).Pairwise (fun l l' => ¬ l'.Displaces l) → again = .unchanged) := by
  rw [perform_fst] at hok
  obtain ⟨before, cs, hselects, hselects', hissue, hscope⟩ := exists_selects_of_perform hok hcommits
  obtain ⟨hempty, happlicable, -⟩ := applyFilter_eq_ok_iff.1 hok
  have hlabels : a.filter.labelsIn (m.perform a).2 = a.filter.labelsIn m :=
    hselects'.labels_eq.symm.trans hselects.labels_eq
  have hholds := hselects.holds_makeAll_of_label? happlicable before
  have hagain := applyFilter_of_holds hempty happlicable hissue hselects' hholds
    (hscope.imp_left fun hsame => by rw [hsame, hsame])
  rw [hlabels] at hagain
  refine ⟨_, _, hissue, rfl, perform_of_applyFilter hagain hcommits, fun hkept => ?_⟩
  exact if_pos (Issue.addLabels_of_subset (hselects.labelsIn_subset happlicable hkept before))

/-- A label that takes the place of another of its group, and one without a group. -/
theorem perform_again_kept :
    let now : Instant := ⟨⟨2024, 1, 1, by decide⟩, 0, 0, by decide⟩
    let i : Issue := ⟨1, "Index", "", "ada", now, now, .opened, .issue, none, none, [⟨"type.feature"⟩], none, 0⟩
    let m : Model := ⟨[i], [⟨"type.bug"⟩, ⟨"docs"⟩], [], []⟩
    let label (name : String) : Filter := .leaf (.named "label" (.text name))
    let a : Application := ⟨1, .and (label "bug") (label "docs"), true⟩
    let after : Issue := { i with labels := [⟨"type.bug"⟩, ⟨"docs"⟩] }
    (m.perform a).1 = .ok (.updated after) ∧ (m.perform a).2.perform a = (.ok .unchanged, (m.perform a).2) := by
  intro now i m label a after
  have hok : (m.perform a).1 = .ok (.updated after) := by decide +kernel
  obtain ⟨_, again, -, -, hagain, hkept⟩ := perform_again hok rfl
  obtain rfl := hkept (by decide +kernel)
  exact ⟨hok, hagain⟩

/-- A label that is not exclusive is displaced by one that is and comes back beside it; and labels that
displace each other change places with others. -/
theorem exists_perform_again_updated :
    let now : Instant := ⟨⟨2024, 1, 1, by decide⟩, 0, 0, by decide⟩
    let i : Issue := ⟨1, "Index", "", "ada", now, now, .opened, .issue, none, none, [], none, 0⟩
    let m : Model := ⟨[i], [⟨"type-a"⟩, ⟨"type.bug"⟩, ⟨"type.feature"⟩, ⟨"docs"⟩], [], []⟩
    let label (name : String) : Filter := .leaf (.named "label" (.text name))
    let a : Application := ⟨1, .and (label "type-a") (label "type.bug"), true⟩
    let b : Application := ⟨1, .and (.and (label "type.bug") (label "type.feature")) (label "docs"), true⟩
    ((m.perform a).1 = .ok (.updated { i with labels := [⟨"type.bug"⟩] }) ∧
      ((m.perform a).2.perform a).1 = .ok (.updated { i with labels := [⟨"type.bug"⟩, ⟨"type-a"⟩] })) ∧
    (m.perform b).1 = .ok (.updated { i with labels := [⟨"type.feature"⟩, ⟨"docs"⟩] }) ∧
      ((m.perform b).2.perform b).1 = .ok (.updated { i with labels := [⟨"docs"⟩, ⟨"type.feature"⟩] }) := by
  decide +kernel

end Model

end IssueQuery
