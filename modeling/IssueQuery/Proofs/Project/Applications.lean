/-
Runs of applications. An application leaves the model as it was or puts one edited issue in; so a
run keeps what an edit keeps, and parent links that form no cycle go on to form none.
-/
import IssueQuery.Project.Change
import IssueQuery.Proofs.Filter.Conjuncts
import IssueQuery.Proofs.Filter.Edits

namespace IssueQuery

/-! ## One application -/

/-- The error of an application that comes to a connective other than conjunction. -/
abbrev ProjectError.stuck : ProjectError := .filter (.inapplicable .notConjunction)

theorem Filter.whyNotApplicable_ne_stuck (f : Filter) (m : Model) (i : Issue) : f.whyNotApplicable m i ≠ .stuck := by
  unfold whyNotApplicable
  split
  · split
    · rename_i e he
      obtain ⟨q, -, hq⟩ := List.exists_of_findSome?_eq_some he
      split at hq
      · cases hq
      · split at hq
        · rename_i hfail
          cases hq
          rintro ⟨⟩
          exact (q.apply_gives m i).ne_error hfail
        · cases hq
    · exact nofun
  · exact nofun

namespace Model

variable {m m₁ m₂ : Model} {id : UInt32} {f : Filter} {a : Application} {outcome : Outcome}

/-- What a successful application comes to. -/
theorem applyFilter_eq_ok_iff : m.applyFilter id f = .ok outcome ↔
    f.isEmpty = false ∧ f.isApplicable = true ∧ ∃ before after, m.issue? id = some before ∧
      f.apply m before = .ok after ∧
      (after = before ∧ outcome = .unchanged ∨
        after ≠ before ∧ (∃ scope, Scope.ofFilter? f = .ok scope) ∧ outcome = .updated after) := by
  unfold applyFilter
  rw [guard_eq_ok_iff, Bool.not_eq_true]
  refine and_congr_right fun _ => ?_
  cases m.issue? id with
  | none => simp [throw, throwThe, MonadExceptOf.throw]
  | some before =>
    simp only [guard_eq_ok_iff, Bool.not_eq_true', Bool.not_eq_false, bind_eq_ok_iff, mapError_eq_ok_iff]
    refine and_congr_right fun _ => ?_
    constructor
    · rintro ⟨after, hafter, h⟩
      split at h
      · rename_i hsame
        cases h
        exact ⟨before, after, rfl, hafter, .inl ⟨hsame, rfl⟩⟩
      · rename_i hsame
        simp only [bind_eq_ok_iff, mapError_eq_ok_iff] at h
        obtain ⟨scope, hscope, ⟨⟩⟩ := h
        exact ⟨before, after, rfl, hafter, .inr ⟨hsame, ⟨scope, hscope⟩, rfl⟩⟩
    · rintro ⟨_, after, ⟨⟩, hafter, ⟨hsame, rfl⟩ | ⟨hsame, ⟨scope, hscope⟩, rfl⟩⟩
      · exact ⟨after, hafter, if_pos hsame⟩
      · refine ⟨after, hafter, ?_⟩
        rw [if_neg hsame]
        simp only [bind_eq_ok_iff, mapError_eq_ok_iff]
        exact ⟨scope, hscope, rfl⟩

/-- The issue that an application comes to is an edit of the issue of the number, and no application
is stuck. -/
theorem applyFilter_gives (m : Model) (id : UInt32) (f : Filter) :
    Gives .stuck (m.applyFilter id f) fun outcome => ∀ after, outcome = .updated after →
      ∃ before, m.issue? id = some before ∧ before.Edited m (m.AdmitsParent id) after := by
  unfold applyFilter
  refine .guard nofun fun _ => ?_
  cases hbefore : m.issue? id with
  | none => exact nofun
  | some before =>
    have hid := id_of_issue? hbefore
    refine .guard (f.whyNotApplicable_ne_stuck m before) fun happ => ?_
    rw [Bool.not_eq_true', Bool.not_eq_false] at happ
    have hedit := Filter.apply_gives (m := m) (i := before) (Filter.isConjunction_of_isApplicable happ)
    refine (hedit.mapError fun e he => ?_).bind fun after hafter => ?_
    · injection he with he
      injection he
    · split
      · intro _ hupdated
        cases hupdated
      · refine .bind (gives_mapError_of_ne fun e => ?_) fun _ _ => ?_
        · exact nofun
        · rintro _ ⟨⟩
          exact ⟨before, rfl, hid ▸ hafter⟩

theorem perform_fst (m : Model) (a : Application) : (m.perform a).1 = m.applyFilter a.id a.filter := by
  unfold perform
  cases m.applyFilter a.id a.filter <;> rfl

theorem perform_of_applyFilter (h : m.applyFilter a.id a.filter = .ok outcome) (hcommits : a.commits = true) :
    m.perform a = (.ok outcome, outcome.commit m a.id) := by
  rw [perform, h, hcommits]
  rfl

/-- What an application can do to the model. -/
theorem perform_cases (m : Model) (a : Application) : (m.perform a).2 = m ∨
    ∃ before after, a.commits = true ∧ (m.perform a).1 = .ok (.updated after) ∧ m.issue? a.id = some before ∧
      before.Edited m (m.AdmitsParent a.id) after ∧ (m.perform a).2 = m.update a.id fun _ => after := by
  have hgives := m.applyFilter_gives a.id a.filter
  unfold perform
  cases h : m.applyFilter a.id a.filter with
  | error e => exact .inl rfl
  | ok outcome =>
    by_cases hcommits : a.commits = true
    · cases outcome with
      | unchanged => exact .inl (if_pos hcommits)
      | updated after =>
        obtain ⟨before, hbefore, hedited⟩ := hgives.of_ok h after rfl
        exact .inr ⟨before, after, hcommits, rfl, hbefore, hedited, if_pos hcommits⟩
    · exact .inl (if_neg hcommits)

/-- An application that fails, changes nothing or does not commit leaves the model as it was. -/
theorem perform_eq_self (h : (∃ e, (m.perform a).1 = .error e) ∨ (m.perform a).1 = .ok .unchanged ∨
    a.commits = false) : (m.perform a).2 = m := by
  rcases m.perform_cases a with hsame | ⟨before, after, hcommits, hresult, -, -, -⟩
  · exact hsame
  · rw [hresult, hcommits] at h
    rcases h with ⟨e, he⟩ | h | h <;> cases ‹_ = _›

theorem perform_ne_stuck (m : Model) (a : Application) : (m.perform a).1 ≠ .error .stuck := by
  rw [perform_fst]
  exact (m.applyFilter_gives a.id a.filter).ne_error

/-! ## Edits of a model -/

/-- How a model may be edited: its lists are as before, but for the issues, which are edited in their
places and refer to the model's own entries. -/
structure Edited (m m' : Model) : Prop where
  labels : m'.labels = m.labels
  milestones : m'.milestones = m.milestones
  users : m'.users = m.users
  issues : List.Forall₂ (Issue.Edited m fun p => ∃ i ∈ m.issues, i.id = p) m.issues m'.issues

theorem Edited.refl (m : Model) : m.Edited m := ⟨rfl, rfl, rfl, List.forall₂_same.2 fun i _ => .refl i⟩

theorem forall₂_trans {α : Type} {R : α → α → Prop} (hR : ∀ a b c, R a b → R b c → R a c) {as bs cs : List α}
    (h : List.Forall₂ R as bs) (h' : List.Forall₂ R bs cs) : List.Forall₂ R as cs := by
  induction h generalizing cs with
  | nil => exact h'
  | cons hab _ ih =>
    cases h' with
    | cons hbc h' => exact .cons (hR _ _ _ hab hbc) (ih h')

/-- An edited issue keeps its number. -/
theorem Edited.exists_of_mem (h : m.Edited m₁) {i : Issue} (hi : i ∈ m₁.issues) : ∃ j ∈ m.issues, j.id = i.id := by
  obtain ⟨k, hk, rfl⟩ := List.getElem_of_mem hi
  have hlength := h.issues.length_eq
  have hedited := (List.forall₂_iff_get.1 h.issues).2 k (hlength ▸ hk) hk
  exact ⟨m.issues[k], List.getElem_mem _, hedited.id.symm⟩

theorem Edited.trans (h : m.Edited m₁) (h' : m₁.Edited m₂) : m.Edited m₂ where
  labels := h'.labels.trans h.labels
  milestones := h'.milestones.trans h.milestones
  users := h'.users.trans h.users
  issues := by
    -- what the second edit refers to was in the first model
    have hissues := h'.issues.imp fun _ _ hedited => hedited.mono h.milestones h.users h.labels
      fun p ⟨i, hi, hp⟩ => hp ▸ h.exists_of_mem hi
    exact forall₂_trans (fun _ _ _ => .trans) h.issues hissues

theorem forall₂_updateFirst {R : Issue → Issue → Prop} {p : Issue → Bool} {before after : Issue} (hrefl : ∀ i, R i i)
    (h : R before after) {issues : List Issue} (hbefore : issues.find? p = some before) :
    List.Forall₂ R issues (updateFirst p (fun _ => after) issues) := by
  induction issues with
  | nil => cases hbefore
  | cons i issues ih =>
    rw [List.find?_cons] at hbefore
    unfold updateFirst
    split at hbefore
    · rename_i hp
      cases hbefore
      rw [if_pos hp]
      exact .cons h (List.forall₂_same.2 fun j _ => hrefl j)
    · rename_i hp
      rw [if_neg (Bool.eq_false_iff.1 hp)]
      exact .cons (hrefl i) (ih hbefore)

theorem edited_perform (m : Model) (a : Application) : m.Edited (m.perform a).2 := by
  rcases m.perform_cases a with hsame | ⟨before, after, -, -, hbefore, hedited, hafter⟩
  · rw [hsame]
    exact .refl m
  · rw [hafter]
    refine ⟨rfl, rfl, rfl, forall₂_updateFirst .refl ?_ hbefore⟩
    refine hedited.mono rfl rfl rfl fun p ⟨_, target, htarget, _⟩ => ?_
    exact ⟨target, mem_of_issue? htarget, id_of_issue? htarget⟩

/-! ## Runs -/

/-- The model after a run of applications. -/
def performAll (m : Model) (as : List Application) : Model := as.foldl (fun m a => (m.perform a).2) m

theorem Acyclic.perform (h : m.Acyclic) (a : Application) : (m.perform a).2.Acyclic := by
  rcases m.perform_cases a with hsame | ⟨before, after, -, -, hbefore, hedited, hafter⟩
  · rw [hsame]
    exact h
  · rw [hafter]
    exact h.update hbefore (hedited.id.trans (id_of_issue? hbefore)) hedited.parent

/-- Where no issue is its own ancestor, none is after a run. -/
theorem acyclic_performAll (h : m.Acyclic) (as : List Application) : (m.performAll as).Acyclic := by
  induction as generalizing m with
  | nil => exact h
  | cons a as ih => exact ih (h.perform a)

/-- Of two issues, the first gets the second for its parent; then the second is refused the first. -/
theorem acyclic_performAll_refused :
    let now : Instant := ⟨⟨2024, 1, 1, by decide⟩, 0, 0, by decide⟩
    let issue (id : UInt32) (title : String) : Issue :=
      ⟨id, title, "", "ada", now, now, .opened, .issue, none, none, [], none, 0⟩
    let m : Model := ⟨[issue 1 "Parser", issue 2 "Lexer"], [], [], []⟩
    let parent (id : UInt32) (text : String) : Application := ⟨id, .leaf (.named "parent" (.text text)), true⟩
    let after := m.performAll [parent 1 "lex", parent 2 "#1"]
    m.Acyclic ∧ after.Acyclic ∧ after.issues.map Issue.parent = [some 2, none] := by
  intro now issue m parent after
  have hm : m.Acyclic := by decide +kernel
  exact ⟨hm, acyclic_performAll hm _, by decide +kernel⟩

theorem edited_performAll (m : Model) (as : List Application) : m.Edited (m.performAll as) := by
  induction as generalizing m with
  | nil => exact .refl m
  | cons a as ih => exact (m.edited_perform a).trans (ih _)

/-- A run edits the issues in their places and nothing else. The application after it is not stuck, and
if it fails, changes nothing or does not commit, it leaves the model as it was. -/
theorem performAll_frame (m : Model) (as : List Application) (a : Application) :
    m.Edited (m.performAll as) ∧ ((m.performAll as).perform a).1 ≠ .error (.filter (.inapplicable .notConjunction)) ∧
    ((∃ e, ((m.performAll as).perform a).1 = .error e) ∨ ((m.performAll as).perform a).1 = .ok .unchanged ∨
      a.commits = false → ((m.performAll as).perform a).2 = m.performAll as) :=
  ⟨m.edited_performAll as, perform_ne_stuck _ a, perform_eq_self⟩

/-- One issue gets a milestone, and nothing else is edited; the conjunction after it fails for another issue at
its second qualifier, and has not set the milestone of that one. -/
theorem performAll_frame_failed :
    let now : Instant := ⟨⟨2024, 1, 1, by decide⟩, 0, 0, by decide⟩
    let issue (id : UInt32) (title : String) : Issue :=
      ⟨id, title, "", "ada", now, now, .opened, .issue, none, none, [], none, 0⟩
    let v1 : Milestone := ⟨1, "v1", none, true⟩
    let m : Model := ⟨[issue 1 "Parser", issue 2 "Lexer"], [], [v1], []⟩
    let milestone : Filter := .leaf (.named "milestone" (.text "v1"))
    let after := m.performAll [⟨1, milestone, true⟩]
    let a : Application := ⟨2, .and milestone (.leaf (.named "parent" (.text "#9"))), true⟩
    m.Edited after ∧ after.issues.map Issue.milestone = [some v1, none] ∧
      (after.perform a).1 = .error (.filter (.inapplicable (.noMatch "parents" "#9"))) ∧
      (after.perform a).2 = after := by
  intro now issue v1 m milestone after a
  obtain ⟨hedited, -, hsame⟩ := performAll_frame m [⟨1, milestone, true⟩] a
  have hfails : (after.perform a).1 = .error (.filter (.inapplicable (.noMatch "parents" "#9"))) := by decide +kernel
  exact ⟨hedited, by decide +kernel, hfails, hsame (.inl ⟨_, hfails⟩)⟩

end Model

end IssueQuery
