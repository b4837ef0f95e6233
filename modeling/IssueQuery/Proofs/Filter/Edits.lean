/-
What applying a filter may do to an issue. Five of its fields can change, to an entry of the model
where they refer to one; and a conjunction fails only for a reason that one of its qualifiers has.
-/
import IssueQuery.Filter.Apply
import IssueQuery.Proofs.Issue.Labels
import IssueQuery.Proofs.Model.Ancestors
import IssueQuery.Proofs.Reading

namespace IssueQuery

/-! ## Edits -/

/-- How an issue may be edited: its state may change, its milestone, assignee and parent are as before
or picked anew, and its labels are some of those before and of the model's. -/
structure Issue.Edited (m : Model) (mayBeParent : UInt32 → Prop) (before after : Issue) : Prop where
  id : after.id = before.id
  title : after.title = before.title
  body : after.body = before.body
  author : after.author = before.author
  createdAt : after.createdAt = before.createdAt
  updatedAt : after.updatedAt = before.updatedAt
  kind : after.kind = before.kind
  comments : after.comments = before.comments
  milestone : after.milestone = before.milestone ∨ ∃ x ∈ m.milestones, after.milestone = some x
  assignee : after.assignee = before.assignee ∨ ∃ u ∈ m.users, after.assignee = some u
  labels : ∀ l ∈ after.labels, l ∈ before.labels ∨ l ∈ m.labels
  parent : after.parent = before.parent ∨ ∃ p, after.parent = some p ∧ mayBeParent p

namespace Issue

variable {m m' : Model} {P Q : UInt32 → Prop} {i j k : Issue}

theorem Edited.refl (i : Issue) : i.Edited m P i :=
  ⟨rfl, rfl, rfl, rfl, rfl, rfl, rfl, rfl, .inl rfl, .inl rfl, fun _ => .inl, .inl rfl⟩

theorem Edited.mono (h : i.Edited m P j) (hmilestones : m.milestones = m'.milestones) (husers : m.users = m'.users)
    (hlabels : m.labels = m'.labels) (hPQ : ∀ p, P p → Q p) : i.Edited m' Q j :=
  ⟨h.id, h.title, h.body, h.author, h.createdAt, h.updatedAt, h.kind, h.comments, hmilestones ▸ h.milestone,
    husers ▸ h.assignee, hlabels ▸ h.labels, h.parent.imp_right fun ⟨p, hp, hP⟩ => ⟨p, hp, hPQ p hP⟩⟩

theorem Edited.trans (h : i.Edited m P j) (h' : j.Edited m P k) : i.Edited m P k where
  id := h'.id.trans h.id
  title := h'.title.trans h.title
  body := h'.body.trans h.body
  author := h'.author.trans h.author
  createdAt := h'.createdAt.trans h.createdAt
  updatedAt := h'.updatedAt.trans h.updatedAt
  kind := h'.kind.trans h.kind
  comments := h'.comments.trans h.comments
  milestone := by
    rcases h'.milestone with hsame | hnew
    · rw [hsame]
      exact h.milestone
    · exact .inr hnew
  assignee := by
    rcases h'.assignee with hsame | hnew
    · rw [hsame]
      exact h.assignee
    · exact .inr hnew
  labels l hl := (h'.labels l hl).elim (h.labels l) .inr
  parent := by
    rcases h'.parent with hsame | hnew
    · rw [hsame]
      exact h.parent
    · exact .inr hnew

end Issue

/-! ## Results that satisfy a condition, and errors that do not occur -/

/-- The computation gives a value with the property, or an error other than `bad`. -/
def Gives {ε α : Type} (bad : ε) (x : Except ε α) (P : α → Prop) : Prop :=
  match x with
  | .ok a => P a
  | .error e => e ≠ bad

section Gives

variable {ε ε' α β : Type} {bad : ε} {x : Except ε α} {P : α → Prop} {Q : β → Prop}

theorem Gives.bind {f : α → Except ε β} (h : Gives bad x P) (hf : ∀ a, P a → Gives bad (f a) Q) :
    Gives bad (x >>= f) Q := by
  cases x with
  | error e => exact h
  | ok a => exact hf a h

theorem Gives.imp {Q : α → Prop} (h : Gives bad x P) (hPQ : ∀ a, P a → Q a) : Gives bad x Q := by
  cases x with
  | error e => exact h
  | ok a => exact hPQ a h

theorem Gives.map {f : α → β} (h : Gives bad x P) (hf : ∀ a, P a → Q (f a)) : Gives bad (x.map f) Q := by
  cases x with
  | error e => exact h
  | ok a => exact hf a h

theorem Gives.mapError {g : ε → ε'} {bad' : ε'} (h : Gives bad x P) (hg : ∀ e, g e = bad' → e = bad) :
    Gives bad' (x.mapError g) P := by
  cases x with
  | error e => exact fun he => h (hg e he)
  | ok a => exact h

theorem gives_mapError_of_ne {g : ε → ε'} {bad' : ε'} (hg : ∀ e, g e ≠ bad') :
    Gives bad' (x.mapError g) fun _ => True := by
  cases x with
  | error e => exact hg e
  | ok a => trivial

/-- A check before the rest of the computation. -/
theorem Gives.guard {p : Prop} [Decidable p] {e : ε} {k : PUnit → Except ε α} (he : e ≠ bad)
    (h : ¬ p → Gives bad (k ()) P) : Gives bad (if p then throw e >>= k else k ()) P := by
  split
  · exact he
  · rename_i hp
    exact h hp

theorem Gives.of_ok {a : α} (h : Gives bad x P) (hx : x = .ok a) : P a := by
  subst hx
  exact h

theorem Gives.ne_error (h : Gives bad x P) : x ≠ .error bad := by
  rintro rfl
  exact h rfl

end Gives

/-! ## Qualifiers -/

/-- What is resolved is one of the candidates. -/
theorem resolve_gives {α : Type} (field query : String) (key : α → String) (candidates : List α) :
    Gives .notConjunction (resolve field query key candidates) (· ∈ candidates) := by
  unfold resolve
  split
  · exact nofun
  · rename_i only honly
    exact List.mem_of_mem_filter (honly ▸ List.mem_singleton_self only)
  · split
    · rename_i only honly
      exact List.mem_of_mem_filter (List.mem_of_mem_filter (honly ▸ List.mem_singleton_self only))
    · exact nofun

namespace Qualifier

variable (c : Content) (m : Model) (i : Issue)

theorem textFor_gives (field : String) : Gives .notConjunction (textFor field c) fun _ => True := by
  unfold textFor
  split
  · trivial
  · exact nofun

theorem applyMilestone_gives :
    Gives .notConjunction (applyMilestone c m i) (i.Edited m (m.AdmitsParent i.id)) := by
  refine (textFor_gives c "milestone").bind fun query _ => ?_
  refine (resolve_gives "milestones" query _ m.milestones).bind fun milestone hmilestone => ?_
  exact { Issue.Edited.refl i with milestone := .inr ⟨milestone, hmilestone, rfl⟩ }

theorem applyLabel_gives : Gives .notConjunction (applyLabel c m i) (i.Edited m (m.AdmitsParent i.id)) := by
  refine (textFor_gives c "label").bind fun query _ => ?_
  refine (resolve_gives "labels" query _ m.labels).bind fun label hlabel => ?_
  refine { Issue.Edited.refl i with labels := fun l hl => ?_ }
  rcases Issue.mem_addLabel_iff.1 hl with rfl | ⟨hl, -⟩
  · exact .inr hlabel
  · exact .inl hl

theorem applyAssignee_gives :
    Gives .notConjunction (applyAssignee c m i) (i.Edited m (m.AdmitsParent i.id)) := by
  refine (textFor_gives c "assignee").bind fun query _ => ?_
  refine (resolve_gives "assignees" query _ m.users).bind fun user huser => ?_
  exact { Issue.Edited.refl i with assignee := .inr ⟨user, huser, rfl⟩ }

theorem applyState_gives : Gives .notConjunction (applyState c i) (i.Edited m (m.AdmitsParent i.id)) := by
  refine (textFor_gives c "state").bind fun word _ => ?_
  dsimp only
  split
  · exact { Issue.Edited.refl i with }
  · exact nofun

theorem parentFor_gives (query : String) : Gives .notConjunction (parentFor query m i) fun _ => True := by
  unfold parentFor
  split
  · trivial
  · exact (resolve_gives "parents" query _ _).map fun _ _ => trivial

theorem applyParent_gives : Gives .notConjunction (applyParent c m i) (i.Edited m (m.AdmitsParent i.id)) := by
  refine (textFor_gives c "parent").bind fun query _ => ?_
  refine (parentFor_gives m i query).bind fun parent _ => ?_
  split
  · exact nofun
  · rename_i target htarget
    split
    · exact nofun
    · rename_i hadmits
      rw [Bool.or_eq_true, not_or, beq_iff_eq, Bool.not_eq_true] at hadmits
      have hparent : m.AdmitsParent i.id parent := ⟨hadmits.1, target, htarget, hadmits.2⟩
      have hsame : i.Edited m (m.AdmitsParent i.id) i := .refl i
      exact { hsame with parent := .inr ⟨parent, rfl, hparent⟩ }

/-- A qualifier edits the issue, or it fails for a reason of its own. -/
theorem apply_gives (q : Qualifier) :
    Gives .notConjunction (q.apply m i) (i.Edited m (m.AdmitsParent i.id)) := by
  unfold apply
  cases q.kind with
  | empty | field | sort => exact Issue.Edited.refl i
  | keyword | title | body | id | created | updated | author | type => exact nofun
  | has | no | is | involves | unknown => exact nofun
  | milestone => exact applyMilestone_gives q.content m i
  | label => exact applyLabel_gives q.content m i
  | assignee => exact applyAssignee_gives q.content m i
  | state => exact applyState_gives q.content m i
  | parent => exact applyParent_gives q.content m i

end Qualifier

/-! ## Filters -/

namespace Filter

variable {m : Model} {i : Issue}

/-- A conjunction edits the issue, or one of its qualifiers fails. -/
theorem apply_gives {f : Filter} (h : f.isConjunction = true) :
    Gives .notConjunction (f.apply m i) (i.Edited m (m.AdmitsParent i.id)) := by
  induction f generalizing i with
  | leaf q => exact q.apply_gives m i
  | and left right ihl ihr =>
    rw [isConjunction, Bool.and_eq_true] at h
    refine (ihl h.1).bind fun staged hstaged => ?_
    exact (ihr h.2).imp fun after hafter => hstaged.trans (hstaged.id ▸ hafter)
  | or left right | not inner => cases h

end Filter

end IssueQuery
