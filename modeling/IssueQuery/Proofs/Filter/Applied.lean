/-
What an issue satisfies after a filter has been applied to it. What was set is found again, but for a
parent that was named by its title and a label that does not have the text in its parts. So a filter
that spells these two out is satisfied as a whole.
-/
import IssueQuery.Proofs.Filter.Changes
import IssueQuery.Proofs.Filter.Value
import IssueQuery.Proofs.Text.Numeral

namespace IssueQuery

open Qualifier (Content)

/-! ## Numbers of issues -/

theorem Issue.idOf?_of_notMem_head {s : String} (h : '#' ∉ s.toList.head?) : idOf? s = Text.word32? s.toList := by
  unfold idOf?
  split
  · rename_i ds hds
    exact absurd (by rw [hds]; rfl) h
  · rfl

/-- A number stands for the issue that its numeral stands for. -/
theorem Issue.idOf?_toString (n : Int) :
    Issue.idOf? (toString n) = if 0 ≤ n then Text.word32OfNat? n.toNat else none := by
  cases n with
  | ofNat k =>
    have hlist : (toString (Int.ofNat k)).toList = Nat.toDigits 10 k := Text.toList_toString k
    have hnonneg : 0 ≤ Int.ofNat k := Int.natCast_nonneg k
    have hsign : '#' ∉ (toString (Int.ofNat k)).toList.head? := by
      rw [hlist]
      exact fun hc => absurd (Text.isDigit_head_toDigits hc) (by decide)
    rw [if_pos hnonneg, Issue.idOf?_of_notMem_head hsign, hlist]
    exact Text.word32?_toDigits k
  | negSucc k =>
    have hlist : (toString (Int.negSucc k)).toList = '-' :: Nat.toDigits 10 (k + 1) := by
      rw [show toString (Int.negSucc k) = "-" ++ (k + 1).repr from rfl, String.toList_append, Nat.toList_repr]
      rfl
    rw [if_neg (by omega)]
    unfold Issue.idOf?
    rw [hlist]
    rfl

theorem Qualifier.Content.parentId?_eq {c : Content} {query : String} (h : c.asText? = some query) :
    c.parentId? = Issue.idOf? query := by
  cases c with
  | text s =>
    cases h
    rfl
  | number n =>
    cases h
    exact (Issue.idOf?_toString n).symm
  | date | dates | numbers | sortKeys => cases h

/-! ## Qualifiers -/

namespace Qualifier

variable {s : Setting} {i after : Issue} {q : Qualifier}

theorem Content.needle?_eq {c : Content} {query : String} (h : c.asText? = some query) :
    c.needle? = some (Text.lower query) := by
  rw [needle?, h]
  rfl

theorem Content.occursIn_eq {c : Content} {query hay : String} (h : c.asText? = some query) :
    c.occursIn hay = Text.occursFolded (Text.lower query) hay := by
  rw [occursIn, needle?_eq h]
  rfl

/-- An issue of which the selected change holds satisfies the qualifier, as long as this can find the
parent and the label. -/
theorem Selects.isSatisfied_iff {id : UInt32} {c : Change} (h : q.Selects s.model id c) (hc : c.Holds i) :
    q.isSatisfied s i = true ↔
      (q.kind = .parent → q.content.parentId?.isSome = true) ∧
      (q.kind = .label → q.content.fitsLabel i.labels = true) := by
  unfold Qualifier.isSatisfied
  cases h with
  | nothing hk =>
    revert hk
    cases q.kind <;> simp [Kind.isMeta]
  | milestone hk hquery hx =>
    rw [Change.Holds] at hc
    simp [hk, hc, Content.occursIn_eq hquery, (of_resolve hx).2.1]
  | label hk hquery hl => simp [hk]
  | assignee hk hquery hu =>
    rw [Change.Holds] at hc
    simp [hk, hc, Content.isAssigneeOf, Content.needle?_eq hquery, User.goesBy, (of_resolve hu).2.1]
  | state hk hword hs =>
    rw [Change.Holds] at hc
    simp [hk, hc, Content.isStateOf, Content.needle?_eq hword, hs]
  | @numberedParent query p hk hquery hid hadmits =>
    have hanc : s.model.hasAncestor i p = true := Model.hasAncestor_iff.2 ⟨p, hc, .refl⟩
    simp [hk, Content.isAncestorOf, Content.parentId?_eq hquery, hid, hanc]
  | titledParent hk hquery hid htarget hadmits => simp [hk, Content.isAncestorOf, Content.parentId?_eq hquery, hid]

/-- A label that is given by its full name is found again, whatever other labels have the name as a
part of theirs. -/
theorem Selects.fitsLabel_of_fullName {m : Model} {id : UInt32} {c : Change} (h : q.Selects m id c)
    (hc : c.Holds i) (hmodel : ∀ l ∈ m.labels, Text.IsAscii l.fullName) (hk : q.kind = .label)
    (hfull : ∃ s, q.content.asText? = some s ∧ Text.IsAscii s ∧
      ∃ l ∈ m.labels, Text.sameAsciiFolded s l.fullName = true) : q.content.fitsLabel i.labels = true := by
  obtain ⟨s, hs, hascii, named, hnamed, hsame⟩ := hfull
  obtain ⟨query, l, rfl, hquery, hl⟩ := h.exists_label hk
  obtain rfl : s = query := Option.some.inj (hs.symm.trans hquery)
  obtain ⟨hmem, -, hexact⟩ := of_resolve hl
  have hname := hexact named hnamed ((Text.sameAsciiFolded_iff hascii (hmodel named hnamed)).1 hsame).symm
  exact Label.fitsLabel_iff.2 ⟨_, Content.needle?_eq hs, l, hc, Label.fits_of_lower_eq (hmodel l hmem) hname.symm⟩

/-- An applied label or parent that is given by a text. The issue gets the label that the text was resolved to,
which has the text in its full name, and satisfies the qualifier if the text is in the parts of this label as well,
or if another label fits that it had and keeps. It gets a parent, and satisfies the qualifier if the text is the
number of this parent. -/
theorem isSatisfied_of_apply_iff {text : String} (htext : q.content = .text text)
    (h : q.apply s.model i = .ok after) :
    (q.kind = .label → ∃ l, resolve "labels" text (·.fullName) s.model.labels = .ok l ∧ l ∈ s.model.labels ∧
      Text.occursFolded (Text.lower text) l.fullName = true ∧ after = { i with labels := Issue.addLabel l i.labels } ∧
      l ∈ after.labels ∧ (q.isSatisfied s after = true ↔
        l.Fits (Text.lower text) ∨ ∃ l' ∈ i.labels, l' ∈ after.labels ∧ l'.Fits (Text.lower text))) ∧
    (q.kind = .parent → ∃ p, after.parent = some p ∧
      (q.isSatisfied s after = true ↔ Issue.idOf? text = some p)) := by
  have hquery : q.content.asText? = some text := by
    rw [htext]
    rfl
  obtain ⟨c, hc, rfl⟩ := apply_eq_ok_iff.1 h
  have hsatisfied := hc.isSatisfied_iff (Change.holds_make c i)
  constructor
  · intro hk
    rw [hk] at hsatisfied
    simp only [reduceCtorEq, false_implies, true_and, forall_const] at hsatisfied
    obtain ⟨query, l, rfl, hquery', hl⟩ := hc.exists_label hk
    obtain rfl : text = query := Option.some.inj (hquery.symm.trans hquery')
    obtain ⟨hmem, hoccurs, -⟩ := of_resolve hl
    have hafter : l ∈ ((Change.label l).make i).labels := Change.holds_make (.label l) i
    refine ⟨l, hl, hmem, hoccurs, rfl, hafter, ?_⟩
    rw [hsatisfied, Label.fitsLabel_iff, Content.needle?_eq hquery]
    constructor
    · rintro ⟨needle, hneedle, l', hl', hfits⟩
      cases hneedle
      -- a label that is not the new one was there before
      rcases Issue.mem_addLabel_iff.1 hl' with rfl | ⟨hbefore, -⟩
      · exact .inl hfits
      · exact .inr ⟨l', hbefore, hl', hfits⟩
    · rintro (hfits | ⟨l', -, hl', hfits⟩)
      · exact ⟨_, rfl, l, hafter, hfits⟩
      · exact ⟨_, rfl, l', hl', hfits⟩
  · intro hk
    rw [hk] at hsatisfied
    simp only [reduceCtorEq, false_implies, and_true, forall_const, Content.parentId?_eq hquery] at hsatisfied
    obtain ⟨query, p, rfl, hquery', hid⟩ := hc.exists_parent hk
    obtain rfl : text = query := Option.some.inj (hquery.symm.trans hquery')
    refine ⟨p, rfl, ?_⟩
    rcases hid with hid | hid <;> simp [hsatisfied, hid]

/-- A label that is given by its name within the group is found again. -/
theorem isSatisfied_of_apply_label_name :
    let now : Instant := ⟨⟨2024, 1, 1, by decide⟩, 0, 0, by decide⟩
    let i : Issue := ⟨1, "Index", "", "ada", now, now, .opened, .issue, none, none, [], none, 0⟩
    let m : Model := ⟨[i], [⟨"area-UI"⟩, ⟨"docs"⟩], [], []⟩
    let q : Qualifier := .named "label" (.text "ui")
    let after : Issue := { i with labels := [⟨"area-UI"⟩] }
    q.apply m i = .ok after ∧ q.isSatisfied ⟨m, .whole, now⟩ after = true := by
  intro now i m q after
  have happly : q.apply m i = .ok after := by decide
  obtain ⟨hlabel, -⟩ := isSatisfied_of_apply_iff (s := ⟨m, .whole, now⟩) rfl happly
  obtain ⟨l, hl, -, -, -, -, hiff⟩ := hlabel (by decide)
  have hresolved : resolve "labels" "ui" (·.fullName) m.labels = .ok ⟨"area-UI"⟩ := by decide
  obtain rfl : ⟨"area-UI"⟩ = l := Except.ok.inj (hresolved.symm.trans hl)
  exact ⟨happly, hiff.2 (.inl (by decide))⟩

/-- A label that is given by its group, and a parent that is given by its title, are not found again. -/
theorem exists_apply_not_isSatisfied :
    let now : Instant := ⟨⟨2024, 1, 1, by decide⟩, 0, 0, by decide⟩
    let issue (id : UInt32) (title : String) : Issue :=
      ⟨id, title, "", "ada", now, now, .opened, .issue, none, none, [], none, 0⟩
    let m : Model := ⟨[issue 1 "Epic: storage rewrite", issue 2 "Index"], [⟨"area-ui"⟩], [], []⟩
    let label : Qualifier := .named "label" (.text "area")
    let parent : Qualifier := .named "parent" (.text "storage")
    (∃ after, label.apply m (issue 2 "Index") = .ok after ∧ label.isSatisfied ⟨m, .whole, now⟩ after = false) ∧
    ∃ after, parent.apply m (issue 2 "Index") = .ok after ∧ parent.isSatisfied ⟨m, .whole, now⟩ after = false := by
  intro now issue m label parent
  constructor
  · exact ⟨{ issue 2 "Index" with labels := [⟨"area-ui"⟩] }, by decide, by decide⟩
  · exact ⟨{ issue 2 "Index" with parent := some 1 }, by decide +kernel, by decide +kernel⟩

end Qualifier

/-! ## Filters -/

namespace Filter

variable {m : Model} {f : Filter} {i after : Issue}

/-- A conjunction of qualifiers that all hold is not false. -/
theorem value_of_forall_isSatisfied {field : Option String} {now : Instant} (hconjunction : f.isConjunction = true)
    (h : ∀ q ∈ f.qualifiers, q.isSatisfied ⟨m, ⟨field, []⟩, now⟩ i = true) :
    f.value m field now i = none ∨ f.value m field now i = some true := by
  induction f with
  | leaf q =>
    unfold value
    split
    · exact .inl rfl
    · exact .inr (congrArg some (h q (List.mem_singleton_self q)))
  | and left right ihl ihr =>
    rw [isConjunction, Bool.and_eq_true] at hconjunction
    rw [qualifiers, List.forall_mem_append] at h
    unfold value
    rcases ihl hconjunction.1 h.1 with hl | hl <;> rcases ihr hconjunction.2 h.2 with hr | hr <;> simp [hl, hr]
  | or left right | not inner => cases hconjunction

/-- In an applicable filter at most one qualifier names a field. -/
theorem exists_fieldAfter (happlicable : f.isApplicable = true)
    (hfields : ∀ q ∈ f.qualifiers, q.kind = .field → ∃ name, q.content = .text name) :
    ∃ field, fieldAfter none f.fields = .ok field := by
  have hpairwise := (pairwise_kind_of_isApplicable happlicable).filter fun q => q.kind == .field
  unfold fields find
  cases hfind : f.qualifiers.filter fun q => q.kind == .field with
  | nil => exact ⟨none, rfl⟩
  | cons q qs =>
    have hmem : ∀ q' ∈ q :: qs, q' ∈ f.qualifiers ∧ q'.kind = .field := by
      intro q' hq'
      rw [← hfind, List.mem_filter, beq_iff_eq] at hq'
      exact hq'
    obtain ⟨hq, hk⟩ := hmem q (List.mem_cons_self ..)
    obtain ⟨name, hname⟩ := hfields q hq hk
    cases qs with
    | nil => exact ⟨some (Text.lower name), by rw [List.map_singleton, hname]; rfl⟩
    | cons q' qs =>
      obtain ⟨-, hk'⟩ := hmem q' (List.mem_cons_of_mem _ (List.mem_cons_self ..))
      rw [hfind, List.pairwise_cons] at hpairwise
      have := hpairwise.1 q' (List.mem_cons_self ..) (hk.trans hk'.symm)
      simp [hk] at this

/-- As many labels are added as there are qualifiers for labels. -/
theorem Selects.length_labels {id : UInt32} {cs : List Change} (h : f.Selects m id cs) :
    (cs.filterMap Change.label?).length = (f.find fun q => q.kind == .label).length := by
  induction h with
  | @leaf q c hc =>
    by_cases hk : q.kind = .label
    · obtain ⟨query, l, rfl, -, -⟩ := hc.exists_label hk
      simp [find, qualifiers, Change.label?, hk]
    · have hnone : c.label? = none := Option.not_isSome_iff_eq_none.1 (mt hc.isSome_label?.1 hk)
      simp [find, qualifiers, hnone, hk]
  | and _ _ ihl ihr =>
    rw [List.filterMap_append, List.length_append, ihl, ihr, find, find, find, qualifiers, List.filter_append,
      List.length_append]

/-- A filter that was applied is satisfied, whatever the time, if its parent is given by a number, its
field by a text, and a single label by the full name of one in the model. -/
theorem accepts_of_apply (hmodel : ∀ l ∈ m.labels, Text.IsAscii l.fullName) (happlicable : f.isApplicable = true)
    (hparents : ∀ q ∈ f.qualifiers, q.kind = .parent →
      (∃ n : Int, q.content = .number n ∧ 0 ≤ n ∧ n < UInt32.size) ∨
        ∃ s, q.content = .text s ∧ (Issue.idOf? s).isSome = true)
    (hfields : ∀ q ∈ f.qualifiers, q.kind = .field → ∃ name, q.content = .text name)
    (hsingle : (f.find fun q => q.kind == .label).length ≤ 1)
    (hlabels : ∀ q ∈ f.qualifiers, q.kind = .label → ∃ s, q.content.asText? = some s ∧ Text.IsAscii s ∧
      ∃ l ∈ m.labels, Text.sameAsciiFolded s l.fullName = true)
    (h : f.apply m i = .ok after) (now : Instant) : f.accepts m now after = .ok true := by
  obtain ⟨cs, hcs, rfl⟩ := apply_eq_ok_iff.1 h
  -- a single label is displaced by no other
  have hkept : (cs.filterMap Change.label?).Pairwise fun l l' => ¬ l'.Displaces l := by
    rw [← hcs.length_labels] at hsingle
    match cs.filterMap Change.label?, hsingle with
    | [], _ => exact .nil
    | [l], _ => exact List.pairwise_singleton _ l
  have hholds {c : Change} (hc : c ∈ cs) : c.Holds (Change.makeAll cs i) :=
    Change.holds_makeAll (hcs.pairwise_not_undoes happlicable hkept) hc i
  obtain ⟨field, hfield⟩ := exists_fieldAfter happlicable hfields
  have hsatisfied : ∀ q ∈ f.qualifiers, q.isSatisfied ⟨m, ⟨field, []⟩, now⟩ (Change.makeAll cs i) = true := by
    intro q hq
    obtain ⟨c, hc, hselects⟩ := exists_of_mem_of_forall₂ hcs.forall₂ hq
    have hiff := Qualifier.Selects.isSatisfied_iff (s := ⟨m, ⟨field, []⟩, now⟩) hselects (hholds hc)
    refine hiff.2 ⟨fun hk => ?_, fun hk => ?_⟩
    · rcases hparents q hq hk with ⟨n, hn, hnonneg, hlt⟩ | ⟨s, hs, hid⟩
      · have hfits : n.toNat < UInt32.size := by omega
        rw [hn, Qualifier.Content.parentId?, if_pos hnonneg, Text.word32OfNat?, if_pos hfits]
        rfl
      · rwa [hs]
    · exact hselects.fitsLabel_of_fullName (hholds hc) hmodel hk (hlabels q hq hk)
  rw [accepts_eq, hfield]
  rcases value_of_forall_isSatisfied (isConjunction_of_isApplicable happlicable) hsatisfied with hvalue | hvalue <;>
    rw [Except.map, hvalue] <;> rfl

/-- A label by its full name although another label begins with it, a milestone by a part of its title,
a parent by its number, and a field to search. -/
theorem accepts_of_apply_conjunction :
    let now : Instant := ⟨⟨2024, 1, 1, by decide⟩, 0, 0, by decide⟩
    let issue (id : UInt32) (title : String) : Issue :=
      ⟨id, title, "", "ada", now, now, .opened, .issue, none, none, [], none, 0⟩
    let m : Model :=
      ⟨[issue 1 "Epic", issue 2 "Index"], [⟨"type.bugfix"⟩, ⟨"type.bug"⟩], [⟨1, "v1.0", none, true⟩], []⟩
    let label : Qualifier := .named "label" (.text "TYPE.Bug")
    let milestone : Qualifier := .named "m" (.text "V1")
    let parent : Qualifier := .named "parent" (.number 1)
    let field : Qualifier := .named "in" (.text "title")
    let f : Filter := and (and (leaf label) (leaf milestone)) (and (leaf parent) (leaf field))
    let after : Issue :=
      { issue 2 "Index" with labels := [⟨"type.bug"⟩], milestone := some ⟨1, "v1.0", none, true⟩, parent := some 1 }
    f.apply m (issue 2 "Index") = .ok after ∧ f.accepts m now after = .ok true := by
  intro now issue m label milestone parent field f after
  have happly : f.apply m (issue 2 "Index") = .ok after := by decide +kernel
  have hcases : ∀ q ∈ f.qualifiers, q = label ∨ q = milestone ∨ q = parent ∨ q = field := by decide
  refine ⟨happly, accepts_of_apply (by decide) (by decide) ?_ ?_ (by decide) ?_ happly now⟩
  · intro q hq hk
    rcases hcases q hq with rfl | rfl | rfl | rfl
    · exact absurd hk (by decide)
    · exact absurd hk (by decide)
    · exact .inl ⟨1, rfl, by decide, by decide⟩
    · exact absurd hk (by decide)
  · intro q hq hk
    rcases hcases q hq with rfl | rfl | rfl | rfl
    · exact absurd hk (by decide)
    · exact absurd hk (by decide)
    · exact absurd hk (by decide)
    · exact ⟨"title", rfl⟩
  · intro q hq hk
    rcases hcases q hq with rfl | rfl | rfl | rfl
    · exact ⟨"TYPE.Bug", rfl, by decide, ⟨"type.bug"⟩, by decide, by decide⟩
    · exact absurd hk (by decide)
    · exact absurd hk (by decide)
    · exact absurd hk (by decide)

end Filter

end IssueQuery
