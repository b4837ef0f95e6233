/-
Conjunctions of the same qualifiers in another order and grouping. Changes of different fields can be
made in either order, and in an applicable filter with one label at most no field is changed twice; so
that it does not matter how such a filter is written.
-/
import IssueQuery.Proofs.Filter.Changes

namespace IssueQuery

/-! ## Changes in any order -/

namespace Change

/-- The changes are not of one field. -/
def Apart (c c' : Change) : Prop := c.kind? = c'.kind? → c.kind? = none

variable {c c' : Change} {cs ds : List Change}

instance : Std.Symm Apart where
  symm _ _ h heq := heq.trans (h heq.symm)

theorem Apart.make_comm (h : c.Apart c') (i : Issue) : c.make (c'.make i) = c'.make (c.make i) := by
  cases c <;> cases c'
  -- two changes of one field are not apart
  case milestone.milestone | label.label | assignee.assignee | state.state | parent.parent => cases h rfl
  all_goals rfl

/-- Changes of which no two are of one field give the same issue in any order. -/
theorem makeAll_perm (hperm : cs.Perm ds) (h : cs.Pairwise Apart) (i : Issue) : makeAll cs i = makeAll ds i := by
  refine hperm.foldl_eq' (fun c hc c' hc' i => ?_) i
  by_cases heq : c = c'
  · rw [heq]
  · exact Apart.make_comm (h.forall hc' hc (Ne.symm heq)) i

end Change

/-! ## Qualifiers in any order -/

namespace Qualifier

variable {m : Model} {id : UInt32} {q q' : Qualifier} {c c' : Change}

theorem Selects.apart (h : q.Selects m id c) (h' : q'.Selects m id c') (hkind : q.kind = q'.kind → q.kind = .empty) :
    c.Apart c' := by
  intro heq
  rcases h.kind?_eq with hnone | ⟨hne, hsome⟩
  · exact hnone
  · rcases h'.kind?_eq with hnone | ⟨-, hsome'⟩
    · exact heq.trans hnone
    · exact absurd (hkind (Option.some.inj (hsome.symm.trans (heq.trans hsome')))) hne

end Qualifier

/-! ## Conjunctions in any order -/

namespace Filter

variable {m : Model} {id : UInt32} {f g : Filter} {cs : List Change} {i after : Issue}

/-- What a filter selects hangs on its qualifiers alone, if it is a conjunction. -/
theorem selects_of_forall₂ (h : f.isConjunction = true) (hcs : List.Forall₂ (Qualifier.Selects m id) f.qualifiers cs) :
    f.Selects m id cs := by
  induction f generalizing cs with
  | leaf q =>
    cases hcs with
    | cons hc hnil =>
      cases hnil
      exact .leaf hc
  | and left right ihl ihr =>
    rw [isConjunction, Bool.and_eq_true] at h
    have hleft := List.forall₂_take_append _ _ _ hcs.flip
    have hright := List.forall₂_drop_append _ _ _ hcs.flip
    rw [← List.take_append_drop left.qualifiers.length cs]
    exact .and (ihl h.1 hleft.flip) (ihr h.2 hright.flip)
  | or left right | not inner => cases h

/-- In an applicable filter with one label at most, no kind that asks for something repeats. -/
theorem pairwise_kind_of_single (happlicable : f.isApplicable = true)
    (hsingle : (f.find fun q => q.kind == .label).length ≤ 1) :
    f.qualifiers.Pairwise fun q q' => q.kind = q'.kind → q.kind = .empty := by
  have hlabels : (f.qualifiers.filter fun q => q.kind == .label).Pairwise fun _ _ => False := by
    rcases Nat.le_one_iff_eq_zero_or_eq_one.1 hsingle with hnone | hone
    · rw [find, List.length_eq_zero_iff] at hnone
      rw [hnone]
      exact .nil
    · rw [find, List.length_eq_one_iff] at hone
      obtain ⟨q, hq⟩ := hone
      rw [hq]
      exact List.pairwise_singleton _ q
  rw [List.pairwise_filter] at hlabels
  refine (pairwise_kind_of_isApplicable happlicable).imp₂ (fun q q' hkind hlabel heq => ?_) hlabels
  exact (hkind heq).resolve_left fun hk => hlabel (by simp [hk]) (by simp [← heq, hk])

/-- A conjunction of the same qualifiers makes the same of an issue, where no two of them change one
field. -/
theorem apply_of_perm (hkinds : f.qualifiers.Pairwise fun q q' => q.kind = q'.kind → q.kind = .empty)
    (hg : g.isConjunction = true) (hperm : g.qualifiers.Perm f.qualifiers) (h : f.apply m i = .ok after) :
    g.apply m i = .ok after := by
  obtain ⟨cs, hcs, rfl⟩ := apply_eq_ok_iff.1 h
  have hapart : cs.Pairwise Change.Apart :=
    pairwise_of_forall₂ hcs.forall₂ hkinds fun _ _ _ _ hq hq' hkind => hq.apart hq' hkind
  obtain ⟨ds, hds, hperm'⟩ := List.perm_comp_forall₂ hperm hcs.forall₂
  exact apply_eq_ok_iff.2 ⟨ds, selects_of_forall₂ hg hds, Change.makeAll_perm hperm'.symm hapart i⟩

theorem nodup_exclusiveKinds_iff : f.exclusiveKinds.Nodup ↔ ∀ k, k ≠ .label → k ≠ .empty → f.kinds.count k ≤ 1 := by
  rw [exclusiveKinds, List.nodup_iff_count_le_one]
  refine forall_congr' fun k => ?_
  by_cases hk : k ≠ .label ∧ k ≠ .empty
  · rw [List.count_filter (by simp [hk.1, hk.2])]
    simp [hk.1, hk.2]
  · have hnone : k ∉ f.kinds.filter fun k => k != .label && k != .empty := by
      intro hmem
      exact hk (by simpa using List.of_mem_filter hmem)
    rw [List.count_eq_zero_of_not_mem hnone]
    exact iff_of_true (Nat.zero_le 1) fun hlabel hempty => absurd ⟨hlabel, hempty⟩ hk

theorem isApplicable_iff_forall_qualifiers : f.isApplicable = true ↔
    f.isConjunction = true ∧ (∀ q ∈ f.qualifiers, q.isApplicable = true) ∧
      ∀ k, k ≠ .label → k ≠ .empty → f.kinds.count k ≤ 1 := by
  rw [isApplicable_iff, forall_conjuncts_isApplicable_iff, nodup_exclusiveKinds_iff, and_comm, and_assoc]

/-- A filter is applicable if it consists of conjunctions and applicable qualifiers alone, and no kind but
that of labels and the empty one stands in it twice. If it has one label at most, then a conjunction of
the same qualifiers in any order and grouping is applicable too, and makes the same of every issue or
fails with it. -/
theorem apply_rearranged (f : Filter) :
    (f.isApplicable = true ↔ f.isConjunction = true ∧ (∀ q ∈ f.qualifiers, q.isApplicable = true) ∧
      ∀ k, k ≠ .label → k ≠ .empty → f.kinds.count k ≤ 1) ∧
    (f.isApplicable = true → (f.find fun q => q.kind == .label).length ≤ 1 →
      ∀ g : Filter, g.isConjunction = true → g.qualifiers.Perm f.qualifiers →
        g.isApplicable = true ∧ ∀ m i after, g.apply m i = .ok after ↔ f.apply m i = .ok after) := by
  refine ⟨isApplicable_iff_forall_qualifiers, fun happlicable hsingle g hg hperm => ?_⟩
  obtain ⟨hf, hqualifiers, hcount⟩ := isApplicable_iff_forall_qualifiers.1 happlicable
  have hkinds : g.kinds.Perm f.kinds := hperm.map _
  have hg' : g.isApplicable = true := by
    refine isApplicable_iff_forall_qualifiers.2 ⟨hg, fun q hq => hqualifiers q (hperm.mem_iff.1 hq), ?_⟩
    intro k hlabel hempty
    rw [hkinds.count_eq]
    exact hcount k hlabel hempty
  have hsingle' : (g.find fun q => q.kind == .label).length ≤ 1 :=
    (hperm.filter _).length_eq.trans_le hsingle
  refine ⟨hg', fun m i after => ⟨?_, ?_⟩⟩
  · exact apply_of_perm (pairwise_kind_of_single hg' hsingle') hf hperm.symm
  · exact apply_of_perm (pairwise_kind_of_single happlicable hsingle) hg hperm

/-- A qualifier for each field that can change and two terms that ask for nothing, turned round and grouped another
way. -/
theorem apply_rearranged_state_label :
    let now : Instant := ⟨⟨2024, 1, 1, by decide⟩, 0, 0, by decide⟩
    let issue (id : UInt32) (title : String) : Issue :=
      ⟨id, title, "", "ada", now, now, .opened, .issue, none, none, [], none, 0⟩
    let v1 : Milestone := ⟨1, "v1", none, true⟩
    let bob : User := ⟨"bob", none, none⟩
    let i := issue 1 "Index"
    let m : Model := ⟨[i, issue 2 "Storage"], [⟨"type.bug"⟩], [v1], [bob]⟩
    let label : Filter := leaf (.named "label" (.text "bug"))
    let state : Filter := leaf (.named "state" (.text "closed"))
    let milestone : Filter := leaf (.named "milestone" (.text "v"))
    let assignee : Filter := leaf (.named "assignee" (.text "bob"))
    let parent : Filter := leaf (.named "parent" (.text "stor"))
    let f : Filter := and (and (and (and (and (and label empty) state) milestone) assignee) parent) empty
    let g : Filter := and (and parent (and empty milestone)) (and assignee (and state (and empty label)))
    let after : Issue :=
      { i with
        labels := [⟨"type.bug"⟩], state := .closed, milestone := some v1, assignee := some bob, parent := some 2 }
    f.isApplicable = true ∧ g.qualifiers.Perm f.qualifiers ∧ f.apply m i = .ok after ∧
      g.isApplicable = true ∧ g.apply m i = .ok after := by
  intro now issue v1 bob i m label state milestone assignee parent f g after
  have happlicable : f.isApplicable = true := by decide +kernel
  have hperm : g.qualifiers.Perm f.qualifiers := by decide +kernel
  have happly : f.apply m i = .ok after := by decide +kernel
  obtain ⟨hg, hsame⟩ := (apply_rearranged f).2 happlicable (by decide +kernel) g (by decide +kernel) hperm
  exact ⟨happlicable, hperm, happly, hg, (hsame m i after).2 happly⟩

end Filter

end IssueQuery
