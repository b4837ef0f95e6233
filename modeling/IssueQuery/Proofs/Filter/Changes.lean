/-
The changes that applying a filter makes. A qualifier selects one change of one field, which hangs on
the model and the number of the issue alone; a conjunction makes the selected changes from left to
right. What a change sets stays as it is unless a later change undoes it.
-/
import IssueQuery.Proofs.Filter.Conjuncts
import IssueQuery.Proofs.Filter.Edits

namespace IssueQuery

open Qualifier (Content)

/-! ## Changes -/

/-- A change of one field of an issue, if of any. -/
inductive Change
  | nothing
  | milestone (x : Milestone)
  | label (l : Label)
  | assignee (u : User)
  | state (s : Issue.State)
  | parent (p : UInt32)
  deriving DecidableEq

namespace Change

/-- The issue after the change. -/
def make : Change → Issue → Issue
  | nothing, i => i
  | milestone x, i => { i with milestone := some x }
  | label l, i => { i with labels := Issue.addLabel l i.labels }
  | assignee u, i => { i with assignee := some u }
  | state s, i => { i with state := s }
  | parent p, i => { i with parent := some p }

/-- The issue is as the change would make it. -/
def Holds : Change → Issue → Prop
  | nothing, _ => True
  | milestone x, i => i.milestone = some x
  | label l, i => l ∈ i.labels
  | assignee u, i => i.assignee = some u
  | state s, i => i.state = s
  | parent p, i => i.parent = some p

/-- The first change may take back what the second has set. -/
inductive Undoes : Change → Change → Prop
  | milestone (x y : Milestone) : Undoes (milestone x) (milestone y)
  | label {l other : Label} : l.Displaces other → Undoes (label l) (label other)
  | assignee (u v : User) : Undoes (assignee u) (assignee v)
  | state (s t : Issue.State) : Undoes (state s) (state t)
  | parent (p q : UInt32) : Undoes (parent p) (parent q)

/-- The kind of the qualifiers for the field that is changed, if one is. -/
def kind? : Change → Option Qualifier.Kind
  | nothing => none
  | milestone _ => some .milestone
  | label _ => some .label
  | assignee _ => some .assignee
  | state _ => some .state
  | parent _ => some .parent

/-- The label that the change adds. -/
def label? : Change → Option Label
  | label l => some l
  | _ => none

/-- The issue after the changes, from left to right. -/
def makeAll (cs : List Change) (i : Issue) : Issue := cs.foldl (fun i c => c.make i) i

variable {c c' : Change} {cs : List Change} {i : Issue}

@[simp] theorem make_id (c : Change) (i : Issue) : (c.make i).id = i.id := by cases c <;> rfl

theorem makeAll_cons (c : Change) (cs : List Change) (i : Issue) : makeAll (c :: cs) i = makeAll cs (c.make i) := rfl

theorem makeAll_append (cs ds : List Change) (i : Issue) : makeAll (cs ++ ds) i = makeAll ds (makeAll cs i) :=
  List.foldl_append

@[simp] theorem makeAll_id (cs : List Change) (i : Issue) : (makeAll cs i).id = i.id := by
  induction cs generalizing i with
  | nil => rfl
  | cons c cs ih => rw [makeAll_cons, ih, make_id]

theorem Undoes.kind?_eq (h : c'.Undoes c) : c'.kind? = c.kind? ∧ c.kind? ≠ none := by
  cases h <;> exact ⟨rfl, nofun⟩

theorem holds_make (c : Change) (i : Issue) : c.Holds (c.make i) := by
  cases c with
  | nothing => trivial
  | label l => exact Issue.mem_addLabel_iff.2 (.inl rfl)
  | milestone x | assignee u | state s | parent p => rfl

/-- A change that holds already changes nothing. -/
theorem make_of_holds (h : c.Holds i) : c.make i = i := by
  cases c with
  | nothing => rfl
  | label l => rw [make, Issue.addLabel_of_mem h]
  | milestone x | assignee u | state s | parent p =>
    rw [Holds] at h
    rw [make, ← h]

theorem Holds.make (h : c.Holds i) (hundoes : ¬ c'.Undoes c) : c.Holds (c'.make i) := by
  cases c' with
  | nothing => exact h
  | milestone x =>
    cases c with
    | milestone y => exact absurd (.milestone x y) hundoes
    | _ => exact h
  | label l =>
    cases c with
    | label other => exact Issue.mem_addLabel_iff.2 (.inr ⟨h, .inr fun hl => hundoes (.label hl)⟩)
    | _ => exact h
  | assignee u =>
    cases c with
    | assignee v => exact absurd (.assignee u v) hundoes
    | _ => exact h
  | state s =>
    cases c with
    | state t => exact absurd (.state s t) hundoes
    | _ => exact h
  | parent p =>
    cases c with
    | parent q => exact absurd (.parent p q) hundoes
    | _ => exact h

theorem Holds.makeAll (h : c.Holds i) (hundoes : ∀ c' ∈ cs, ¬ c'.Undoes c) : c.Holds (makeAll cs i) := by
  induction cs generalizing i with
  | nil => exact h
  | cons c' cs ih =>
    rw [List.forall_mem_cons] at hundoes
    exact ih (h.make hundoes.1) hundoes.2

/-- The changes that are not undone by later ones hold in the end. -/
theorem forall_holds_makeAll {P : Change → Prop} (h : cs.Pairwise fun c c' => P c → ¬ c'.Undoes c) (i : Issue) :
    ∀ c ∈ cs, P c → c.Holds (makeAll cs i) := by
  induction cs generalizing i with
  | nil => exact List.forall_mem_nil _
  | cons c cs ih =>
    rw [List.pairwise_cons] at h
    refine List.forall_mem_cons.2 ⟨fun hP => ?_, ih h.2 (c.make i)⟩
    exact (holds_make c i).makeAll fun c' hc' => h.1 c' hc' hP

theorem holds_makeAll (h : cs.Pairwise fun c c' => ¬ c'.Undoes c) (hc : c ∈ cs) (i : Issue) :
    c.Holds (makeAll cs i) :=
  forall_holds_makeAll (P := fun _ => True) (h.imp fun {_ _} hundoes _ => hundoes) i c hc trivial

/-- Where all changes but those of the labels hold already, only the labels change. -/
theorem makeAll_of_holds (h : ∀ c ∈ cs, c.label? = none → c.Holds i) :
    makeAll cs i = { i with labels := Issue.addLabels (cs.filterMap label?) i.labels } := by
  induction cs generalizing i with
  | nil => rfl
  | cons c cs ih =>
    rw [List.forall_mem_cons] at h
    rw [makeAll_cons]
    cases c with
    | label l =>
      -- what holds of the other fields does not depend on the labels
      rw [ih fun c hc hnone => (h.2 c hc hnone).make (by rintro ⟨⟩; cases hnone)]
      rfl
    | nothing | milestone x | assignee u | state s | parent p =>
      rw [make_of_holds (h.1 rfl), ih h.2]
      rfl

end Change

/-! ## Resolution -/

/-- What is resolved fits the query; if the key of some candidate is the query itself, so is its. -/
theorem of_resolve {α : Type} {field query : String} {key : α → String} {candidates : List α} {x : α}
    (h : resolve field query key candidates = .ok x) :
    x ∈ candidates ∧ Text.occursFolded (Text.lower query) (key x) = true ∧
      ∀ y ∈ candidates, Text.lower (key y) = Text.lower query → Text.lower (key x) = Text.lower query := by
  unfold resolve at h
  split at h
  · cases h
  · rename_i only honly
    cases h
    have hx : x ∈ [x] := List.mem_singleton_self x
    rw [← honly, List.mem_filter] at hx
    refine ⟨hx.1, hx.2, fun y hy hquery => ?_⟩
    have hmem : y ∈ [x] := honly ▸ List.mem_filter.2 ⟨hy, Text.occursFolded_of_lower_eq hquery.symm⟩
    rwa [← List.mem_singleton.1 hmem]
  · split at h
    · rename_i only honly
      cases h
      have hx : x ∈ [x] := List.mem_singleton_self x
      rw [← honly, List.mem_filter, List.mem_filter, beq_iff_eq] at hx
      exact ⟨hx.1.1, hx.1.2, fun _ _ _ => hx.2⟩
    · cases h

namespace Qualifier

theorem textFor_eq_ok_iff {field text : String} {c : Content} :
    textFor field c = .ok text ↔ c.asText? = some text := by
  unfold textFor
  cases c.asText? <;> simp

/-- A field that is set to what the text resolves to. -/
theorem resolved_eq_ok_iff {α : Type} {field entries : String} {c : Content} {key : α → String} {candidates : List α}
    {set : α → Issue} {after : Issue} :
    (do let query ← textFor field c
        let x ← resolve entries query key candidates
        return set x) = .ok after ↔
      ∃ query x, c.asText? = some query ∧ resolve entries query key candidates = .ok x ∧ after = set x := by
  simp only [bind_eq_ok_iff, textFor_eq_ok_iff, pure, Except.pure, Except.ok.injEq]
  constructor
  · rintro ⟨query, hquery, x, hx, hafter⟩
    exact ⟨query, x, hquery, hx, hafter.symm⟩
  · rintro ⟨query, x, hquery, hx, hafter⟩
    exact ⟨query, hquery, x, hx, hafter.symm⟩

/-! ## Selected changes -/

/-- The change that the qualifier selects for the issue of a number. -/
inductive Selects (m : Model) (id : UInt32) (q : Qualifier) : Change → Prop
  | nothing : q.kind = .empty ∨ q.kind.isMeta = true → Selects m id q .nothing
  | milestone {query : String} {x : Milestone} : q.kind = .milestone → q.content.asText? = some query →
      resolve "milestones" query (·.title) m.milestones = .ok x → Selects m id q (.milestone x)
  | label {query : String} {l : Label} : q.kind = .label → q.content.asText? = some query →
      resolve "labels" query (·.fullName) m.labels = .ok l → Selects m id q (.label l)
  | assignee {query : String} {u : User} : q.kind = .assignee → q.content.asText? = some query →
      resolve "assignees" query (·.login) m.users = .ok u → Selects m id q (.assignee u)
  | state {word : String} {s : Issue.State} : q.kind = .state → q.content.asText? = some word →
      Content.stateIn? (Text.lower word) = some s → Selects m id q (.state s)
  | numberedParent {query : String} {p : UInt32} : q.kind = .parent → q.content.asText? = some query →
      Issue.idOf? query = some p → m.AdmitsParent id p → Selects m id q (.parent p)
  | titledParent {query : String} {target : Issue} : q.kind = .parent → q.content.asText? = some query →
      Issue.idOf? query = none → resolve "parents" query (·.title) (m.issues.filter (·.id != id)) = .ok target →
      m.AdmitsParent id target.id → Selects m id q (.parent target.id)

variable {m : Model} {i after : Issue} {q : Qualifier}

theorem applyState_eq_ok_iff {c : Content} : applyState c i = .ok after ↔
    ∃ word s, c.asText? = some word ∧ Content.stateIn? (Text.lower word) = some s ∧
      after = { i with state := s } := by
  unfold applyState
  simp only [bind_eq_ok_iff, textFor_eq_ok_iff]
  constructor
  · rintro ⟨word, hword, h⟩
    split at h
    · rename_i s hs
      cases h
      exact ⟨word, s, hword, hs, rfl⟩
    · cases h
  · rintro ⟨word, s, hword, hs, rfl⟩
    refine ⟨word, hword, ?_⟩
    rw [hs]
    rfl

theorem applyParent_eq_ok_iff {c : Content} : applyParent c m i = .ok after ↔
    ∃ query p, c.asText? = some query ∧ parentFor query m i = .ok p ∧ m.AdmitsParent i.id p ∧
      after = { i with parent := some p } := by
  unfold applyParent Model.AdmitsParent
  simp only [bind_eq_ok_iff, textFor_eq_ok_iff]
  constructor
  · rintro ⟨query, hquery, p, hp, h⟩
    split at h
    · cases h
    · rename_i target htarget
      split at h
      · cases h
      · rename_i hadmits
        cases h
        rw [Bool.or_eq_true, not_or, beq_iff_eq, Bool.not_eq_true] at hadmits
        exact ⟨query, p, hquery, hp, ⟨hadmits.1, target, htarget, hadmits.2⟩, rfl⟩
  · rintro ⟨query, p, hquery, hp, ⟨hne, target, htarget, hanc⟩, rfl⟩
    refine ⟨query, hquery, p, hp, ?_⟩
    rw [htarget]
    simp [hne, hanc, pure, Except.pure]

theorem parentFor_eq_ok_iff {query : String} {p : UInt32} : parentFor query m i = .ok p ↔
    Issue.idOf? query = some p ∨ Issue.idOf? query = none ∧ ∃ target,
      resolve "parents" query (·.title) (m.issues.filter (·.id != i.id)) = .ok target ∧ target.id = p := by
  unfold parentFor
  cases Issue.idOf? query with
  | some id => simp
  | none => cases resolve "parents" query (·.title) (m.issues.filter (·.id != i.id)) <;> simp [Except.map]

/-- Applying a qualifier makes the change that it selects, if it selects one. -/
theorem apply_eq_ok_iff : q.apply m i = .ok after ↔ ∃ c, q.Selects m i.id c ∧ after = c.make i := by
  constructor
  · intro h
    unfold apply at h
    cases hk : q.kind with
    | empty | field | sort =>
      rw [hk] at h
      cases h
      exact ⟨.nothing, .nothing (by simp [hk, Kind.isMeta]), rfl⟩
    | keyword | title | body | id | created | updated | author | type | has | no | is | involves | unknown =>
      rw [hk] at h
      cases h
    | milestone =>
      rw [hk] at h
      obtain ⟨query, x, hquery, hx, rfl⟩ := resolved_eq_ok_iff.1 h
      exact ⟨.milestone x, .milestone hk hquery hx, rfl⟩
    | label =>
      rw [hk] at h
      obtain ⟨query, l, hquery, hl, rfl⟩ := resolved_eq_ok_iff.1 h
      exact ⟨.label l, .label hk hquery hl, rfl⟩
    | assignee =>
      rw [hk] at h
      obtain ⟨query, u, hquery, hu, rfl⟩ := resolved_eq_ok_iff.1 h
      exact ⟨.assignee u, .assignee hk hquery hu, rfl⟩
    | state =>
      rw [hk] at h
      obtain ⟨word, s, hword, hs, rfl⟩ := applyState_eq_ok_iff.1 h
      exact ⟨.state s, .state hk hword hs, rfl⟩
    | parent =>
      rw [hk] at h
      obtain ⟨query, p, hquery, hp, hadmits, rfl⟩ := applyParent_eq_ok_iff.1 h
      rcases parentFor_eq_ok_iff.1 hp with hid | ⟨hid, target, htarget, rfl⟩
      · exact ⟨.parent p, .numberedParent hk hquery hid hadmits, rfl⟩
      · exact ⟨.parent target.id, .titledParent hk hquery hid htarget hadmits, rfl⟩
  · rintro ⟨c, hselects, rfl⟩
    unfold apply
    cases hselects with
    | nothing hk =>
      revert hk
      cases q.kind <;> simp [Kind.isMeta, Change.make]
    | milestone hk hquery hx =>
      rw [hk]
      exact resolved_eq_ok_iff.2 ⟨_, _, hquery, hx, rfl⟩
    | label hk hquery hl =>
      rw [hk]
      exact resolved_eq_ok_iff.2 ⟨_, _, hquery, hl, rfl⟩
    | assignee hk hquery hu =>
      rw [hk]
      exact resolved_eq_ok_iff.2 ⟨_, _, hquery, hu, rfl⟩
    | state hk hword hs =>
      rw [hk]
      exact applyState_eq_ok_iff.2 ⟨_, _, hword, hs, rfl⟩
    | numberedParent hk hquery hid hadmits =>
      rw [hk]
      exact applyParent_eq_ok_iff.2 ⟨_, _, hquery, parentFor_eq_ok_iff.2 (.inl hid), hadmits, rfl⟩
    | titledParent hk hquery hid htarget hadmits =>
      rw [hk]
      have hp := parentFor_eq_ok_iff.2 (.inr ⟨hid, _, htarget, rfl⟩)
      exact applyParent_eq_ok_iff.2 ⟨_, _, hquery, hp, hadmits, rfl⟩

/-- A qualifier selects nothing, or a change of the field that its kind is about. -/
theorem Selects.kind?_eq {id : UInt32} {c : Change} (h : q.Selects m id c) :
    c.kind? = none ∨ q.kind ≠ .empty ∧ c.kind? = some q.kind := by
  cases h with
  | nothing => exact .inl rfl
  | milestone hk | label hk | assignee hk | state hk | numberedParent hk | titledParent hk =>
    rw [hk]
    exact .inr ⟨nofun, rfl⟩

/-- Changes that undo each other are selected by qualifiers of one kind, which asks for something. -/
theorem Selects.kind_eq {id : UInt32} {q q' : Qualifier} {c c' : Change} (h : q.Selects m id c)
    (h' : q'.Selects m id c') (hundoes : c'.Undoes c) : q.kind = q'.kind ∧ q.kind ≠ .empty := by
  obtain ⟨heq, hne⟩ := hundoes.kind?_eq
  obtain ⟨hempty, hk⟩ := h.kind?_eq.resolve_left hne
  obtain ⟨-, hk'⟩ := h'.kind?_eq.resolve_left (heq ▸ hne)
  exact ⟨Option.some.inj (hk.symm.trans (heq.symm.trans hk')), hempty⟩

/-- What a qualifier for a label selects. -/
theorem Selects.exists_label {id : UInt32} {c : Change} (h : q.Selects m id c) (hk : q.kind = .label) :
    ∃ query l, c = .label l ∧ q.content.asText? = some query ∧
      resolve "labels" query (·.fullName) m.labels = .ok l := by
  cases h with
  | label _ hquery hl => exact ⟨_, _, rfl, hquery, hl⟩
  | nothing hk' => simp [hk, Kind.isMeta] at hk'
  | milestone hk' | assignee hk' | state hk' | numberedParent hk' | titledParent hk' => simp [hk] at hk'

/-- What a qualifier for a parent selects. -/
theorem Selects.exists_parent {id : UInt32} {c : Change} (h : q.Selects m id c) (hk : q.kind = .parent) :
    ∃ query p, c = .parent p ∧ q.content.asText? = some query ∧
      (Issue.idOf? query = some p ∨ Issue.idOf? query = none) := by
  cases h with
  | numberedParent _ hquery hid => exact ⟨_, _, rfl, hquery, .inl hid⟩
  | titledParent _ hquery hid => exact ⟨_, _, rfl, hquery, .inr hid⟩
  | nothing hk' => simp [hk, Kind.isMeta] at hk'
  | milestone hk' | label hk' | assignee hk' | state hk' => simp [hk] at hk'

theorem Selects.isSome_label? {id : UInt32} {c : Change} (h : q.Selects m id c) :
    c.label?.isSome = true ↔ q.kind = .label := by
  constructor
  · intro hlabel
    cases h with
    | label hk => exact hk
    | nothing | milestone | assignee | state | numberedParent | titledParent => cases hlabel
  · intro hk
    obtain ⟨query, l, rfl, -, -⟩ := h.exists_label hk
    rfl

end Qualifier

/-! ## Lists in step -/

section Forall₂

variable {α β : Type} {R : α → β → Prop} {as : List α} {bs : List β}

theorem exists_of_mem_of_forall₂ (h : List.Forall₂ R as bs) {a : α} (ha : a ∈ as) : ∃ b ∈ bs, R a b := by
  induction h with
  | nil => cases ha
  | cons hab _ ih =>
    rcases List.mem_cons.1 ha with rfl | ha
    · exact ⟨_, List.mem_cons_self .., hab⟩
    · obtain ⟨b, hb, hab⟩ := ih ha
      exact ⟨b, List.mem_cons_of_mem _ hb, hab⟩

theorem pairwise_of_forall₂ {S : α → α → Prop} {T : β → β → Prop} (h : List.Forall₂ R as bs) (hS : as.Pairwise S)
    (hT : ∀ a a' b b', R a b → R a' b' → S a a' → T b b') : bs.Pairwise T := by
  induction h with
  | nil => exact .nil
  | cons hab h ih =>
    rw [List.pairwise_cons] at hS
    refine .cons (fun b' hb' => ?_) (ih hS.2)
    obtain ⟨a', ha', hab'⟩ := exists_of_mem_of_forall₂ h.flip hb'
    exact hT _ _ _ _ hab hab' (hS.1 a' ha')

end Forall₂

/-! ## Conjunctions -/

namespace Filter

/-- The changes that the qualifiers of a conjunction select, from left to right. -/
inductive Selects (m : Model) (id : UInt32) : Filter → List Change → Prop
  | leaf {q : Qualifier} {c : Change} : q.Selects m id c → Selects m id (leaf q) [c]
  | and {left right : Filter} {cs ds : List Change} : Selects m id left cs → Selects m id right ds →
      Selects m id (and left right) (cs ++ ds)

variable {m : Model} {id : UInt32} {i after : Issue} {f : Filter} {cs : List Change}

/-- Applying a conjunction makes all the changes that it selects. -/
theorem apply_eq_ok_iff : f.apply m i = .ok after ↔ ∃ cs, f.Selects m i.id cs ∧ after = Change.makeAll cs i := by
  induction f generalizing i after with
  | leaf q =>
    rw [apply, Qualifier.apply_eq_ok_iff]
    constructor
    · rintro ⟨c, hc, hafter⟩
      exact ⟨[c], .leaf hc, hafter⟩
    · rintro ⟨_, ⟨hc⟩, hafter⟩
      exact ⟨_, hc, hafter⟩
  | and left right ihl ihr =>
    rw [apply, bind_eq_ok_iff]
    constructor
    · rintro ⟨staged, hstaged, hafter⟩
      obtain ⟨cs, hcs, rfl⟩ := ihl.1 hstaged
      obtain ⟨ds, hds, rfl⟩ := ihr.1 hafter
      rw [Change.makeAll_id] at hds
      exact ⟨cs ++ ds, .and hcs hds, (Change.makeAll_append cs ds i).symm⟩
    · rintro ⟨_, hselects, rfl⟩
      cases hselects with
      | @and _ _ cs ds hcs hds =>
        rw [Change.makeAll_append]
        exact ⟨Change.makeAll cs i, ihl.2 ⟨cs, hcs, rfl⟩, ihr.2 ⟨ds, (Change.makeAll_id cs i).symm ▸ hds, rfl⟩⟩
  | or left right | not inner =>
    constructor
    · rintro ⟨⟩
    · rintro ⟨_, ⟨⟩, _⟩

theorem Selects.forall₂ (h : f.Selects m id cs) : List.Forall₂ (Qualifier.Selects m id) f.qualifiers cs := by
  induction h with
  | leaf hc => exact .cons hc .nil
  | and _ _ ihl ihr => exact List.rel_append ihl ihr

/-- No kind of which an issue can satisfy only one qualifier repeats. -/
theorem pairwise_kind_of_isApplicable (h : f.isApplicable = true) :
    f.qualifiers.Pairwise fun q q' => q.kind = q'.kind → q.kind = .label ∨ q.kind = .empty := by
  have hnodup := ((isApplicable_iff f).1 h).1
  unfold exclusiveKinds kinds List.Nodup at hnodup
  rw [List.pairwise_filter, List.pairwise_map] at hnodup
  refine hnodup.imp fun {q q'} hne heq => ?_
  by_contra hkind
  rw [not_or] at hkind
  exact hne (by simp [hkind.1, hkind.2]) (by simp [← heq, hkind.1, hkind.2]) heq

/-- Of the changes of an applicable filter, only labels are undone by others. -/
theorem Selects.pairwise_label_of_undoes (h : f.Selects m id cs) (happlicable : f.isApplicable = true) :
    cs.Pairwise fun c c' => c'.Undoes c → c.label?.isSome = true := by
  refine pairwise_of_forall₂ h.forall₂ (pairwise_kind_of_isApplicable happlicable) ?_
  intro q q' c c' hq hq' hkind hundoes
  obtain ⟨heq, hne⟩ := hq.kind_eq hq' hundoes
  exact hq.isSome_label?.2 ((hkind heq).resolve_right hne)

/-- An applicable filter whose labels do not displace each other undoes none of its changes. -/
theorem Selects.pairwise_not_undoes (h : f.Selects m id cs) (happlicable : f.isApplicable = true)
    (hlabels : (cs.filterMap Change.label?).Pairwise fun l l' => ¬ l'.Displaces l) :
    cs.Pairwise fun c c' => ¬ c'.Undoes c := by
  rw [List.pairwise_filterMap] at hlabels
  refine (h.pairwise_label_of_undoes happlicable).imp₂ (fun c c' hlabel hdisplaces hundoes => ?_) hlabels
  cases hundoes with
  | label hl => exact hdisplaces _ rfl _ rfl hl
  | milestone x y => cases hlabel (.milestone x y)
  | assignee u v => cases hlabel (.assignee u v)
  | state s t => cases hlabel (.state s t)
  | parent p q => cases hlabel (.parent p q)

end Filter

end IssueQuery
