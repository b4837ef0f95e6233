/-
Models that list the same entries in another order. Names are resolved by how many entries fit them, and
issues are found by their numbers, so a filter makes the same of an issue in all of them; and an entry is
always found by its full name, if no other has that name.
-/
import IssueQuery.Proofs.Filter.Changes
import IssueQuery.Proofs.Model.Ancestors

namespace IssueQuery

/-! ## Outcomes -/

namespace ApplyError

/-- The errors are the same, but for the order of the candidates that they name. -/
inductive Alike : ApplyError → ApplyError → Prop
  | refl (e : ApplyError) : Alike e e
  | ambiguous {xs ys : List String} (field : String) : xs.Perm ys → Alike (ambiguous field xs) (ambiguous field ys)

end ApplyError

/-- The same result, or the same error but for the order of the candidates that it names. -/
inductive SameOutcome {α : Type} : Except ApplyError α → Except ApplyError α → Prop
  | ok (a : α) : SameOutcome (.ok a) (.ok a)
  | error {e e' : ApplyError} : e.Alike e' → SameOutcome (.error e) (.error e')

namespace SameOutcome

variable {α β : Type} {x y : Except ApplyError α} {f g : α → Except ApplyError β}

theorem refl (x : Except ApplyError α) : SameOutcome x x := by
  cases x with
  | ok a => exact .ok a
  | error e => exact .error (.refl e)

theorem bind (h : SameOutcome x y) (hf : ∀ a, SameOutcome (f a) (g a)) : SameOutcome (x >>= f) (y >>= g) := by
  cases h with
  | ok a => exact hf a
  | error h => exact .error h

theorem map (f : α → β) (h : SameOutcome x y) : SameOutcome (x.map f) (y.map f) := by
  cases h with
  | ok a => exact .ok (f a)
  | error h => exact .error h

theorem ok_iff (h : SameOutcome x y) (a : α) : x = .ok a ↔ y = .ok a := by
  cases h with
  | ok b => rfl
  | error h => exact iff_of_false nofun nofun

end SameOutcome

/-! ## Resolution -/

section Resolve

variable {α : Type} {xs ys : List α} {x : α} {field query : String} {key : α → String}

/-- How a name is resolved hangs on how many candidates fit it, not on their order. -/
theorem resolve_perm (h : xs.Perm ys) : SameOutcome (resolve field query key xs) (resolve field query key ys) := by
  have hfits := h.filter fun c => Text.occursFolded (Text.lower query) (key c)
  unfold resolve
  generalize xs.filter (fun c => Text.occursFolded (Text.lower query) (key c)) = as at hfits
  generalize ys.filter (fun c => Text.occursFolded (Text.lower query) (key c)) = bs at hfits
  match as, bs, hfits with
  | [], bs, hfits =>
    obtain rfl := hfits.nil_eq
    exact .refl _
  | [a], bs, hfits =>
    obtain rfl := hfits.symm.eq_singleton
    exact .ok a
  | a :: a' :: as, [], hfits | a :: a' :: as, [b], hfits => exact absurd hfits.length_eq (by simp)
  | a :: a' :: as, b :: b' :: bs, hfits =>
    have hexact := hfits.filter fun c => Text.lower (key c) == Text.lower query
    dsimp only
    split
    · rename_i only honly
      rw [honly] at hexact
      rw [hexact.symm.eq_singleton]
      exact .ok only
    · rename_i hmany
      split
      · rename_i only honly
        rw [honly] at hexact
        exact absurd hexact.eq_singleton (hmany only)
      · exact .error (.ambiguous field (hfits.map key))

/-- A candidate is found by its key, in any case, if the key is its alone. -/
theorem resolve_of_exact (hx : x ∈ xs) (hquery : Text.lower (key x) = Text.lower query)
    (hdistinct : (xs.map fun c => Text.lower (key c)).Nodup) : resolve field query key xs = .ok x := by
  have hfits : x ∈ xs.filter fun c => Text.occursFolded (Text.lower query) (key c) :=
    List.mem_filter.2 ⟨hx, Text.occursFolded_of_lower_eq hquery.symm⟩
  have hexact : (xs.filter fun c => Text.occursFolded (Text.lower query) (key c)).filter
      (fun c => Text.lower (key c) == Text.lower query) = [x] := by
    rw [List.filter_filter]
    refine List.perm_singleton.1 ((List.perm_ext_iff_of_nodup (hdistinct.of_map.filter _) (List.nodup_singleton x)).2 ?_)
    intro y
    rw [List.mem_filter, List.mem_singleton]
    constructor
    · rintro ⟨hy, hboth⟩
      rw [Bool.and_eq_true, beq_iff_eq] at hboth
      exact List.inj_on_of_nodup_map hdistinct hy hx (hboth.1.trans hquery.symm)
    · rintro rfl
      simp [hx, hquery, Text.occursFolded_of_lower_eq hquery.symm]
  unfold resolve
  split
  · rename_i hnil
    rw [hnil] at hfits
    cases hfits
  · rename_i only honly
    rw [honly] at hfits
    rw [List.mem_singleton.1 hfits]
  · rw [hexact]

end Resolve

/-! ## Models in another order -/

namespace Model

/-- The models have the same entries, in any order. -/
structure Reordered (m m' : Model) : Prop where
  issues : m.issues.Perm m'.issues
  labels : m.labels.Perm m'.labels
  milestones : m.milestones.Perm m'.milestones
  users : m.users.Perm m'.users

variable {m m' : Model}

theorem issue?_eq_some_iff (hid : (m.issues.map (·.id)).Nodup) {id : UInt32} {i : Issue} :
    m.issue? id = some i ↔ i ∈ m.issues ∧ i.id = id := by
  constructor
  · intro h
    exact ⟨mem_of_issue? h, id_of_issue? h⟩
  · rintro ⟨hi, rfl⟩
    cases h : m.issue? i.id with
    | none => simpa using List.find?_eq_none.1 h i hi
    | some j => rw [List.inj_on_of_nodup_map hid (mem_of_issue? h) hi (id_of_issue? h)]

namespace Reordered

variable (h : m.Reordered m') (hid : (m.issues.map (·.id)).Nodup)
include h hid

theorem issue?_eq (id : UInt32) : m'.issue? id = m.issue? id := by
  have hid' : (m'.issues.map (·.id)).Nodup := (h.issues.map (·.id)).nodup_iff.1 hid
  ext i
  rw [issue?_eq_some_iff hid, issue?_eq_some_iff hid', h.issues.mem_iff]

theorem hasAncestor_eq (i : Issue) (a : UInt32) : m'.hasAncestor i a = m.hasAncestor i a := by
  have hlinks : IsParent m'.issues = IsParent m.issues := by
    ext c d
    unfold IsParent
    rw [show m'.issues.find? (·.id == c) = m.issues.find? (·.id == c) from h.issue?_eq hid c]
  rw [Bool.eq_iff_iff, hasAncestor_iff, hasAncestor_iff, hlinks]

end Reordered

end Model

/-! ## Filters -/

namespace Qualifier

variable {m m' : Model}

theorem parentFor_reordered (h : m.Reordered m') (query : String) (i : Issue) :
    SameOutcome (parentFor query m i) (parentFor query m' i) := by
  unfold parentFor
  cases Issue.idOf? query with
  | some id => exact .ok id
  | none => exact (resolve_perm (h.issues.filter _)).map _

theorem applyParent_reordered (h : m.Reordered m') (hid : (m.issues.map (·.id)).Nodup) (c : Content) (i : Issue) :
    SameOutcome (applyParent c m i) (applyParent c m' i) := by
  unfold applyParent
  refine (SameOutcome.refl _).bind fun query => (parentFor_reordered h query i).bind fun p => ?_
  rw [h.issue?_eq hid]
  simp only [h.hasAncestor_eq hid]
  exact .refl _

theorem apply_of_reordered (h : m.Reordered m') (hid : (m.issues.map (·.id)).Nodup) (q : Qualifier) (i : Issue) :
    SameOutcome (q.apply m i) (q.apply m' i) := by
  unfold apply
  cases q.kind with
  | milestone =>
    exact (SameOutcome.refl _).bind fun query => (resolve_perm h.milestones).bind fun x => .ok _
  | label => exact (SameOutcome.refl _).bind fun query => (resolve_perm h.labels).bind fun l => .ok _
  | assignee => exact (SameOutcome.refl _).bind fun query => (resolve_perm h.users).bind fun u => .ok _
  | parent => exact applyParent_reordered h hid _ i
  | _ => exact .refl _

end Qualifier

namespace Filter

variable {m m' : Model}

theorem apply_of_reordered (h : m.Reordered m') (hid : (m.issues.map (·.id)).Nodup) (f : Filter) (i : Issue) :
    SameOutcome (f.apply m i) (f.apply m' i) := by
  induction f generalizing i with
  | leaf q => exact q.apply_of_reordered h hid i
  | and left right ihl ihr => exact (ihl i).bind ihr
  | or left right | not inner => exact .refl _

/-- In models that list the same entries in another order, the issues having numbers of their own, a filter
makes the same of an issue, or fails with the same error up to the order of the candidates it names. A
milestone, a label and a user are found by their title, full name and login in any case, whatever other
entries contain it, if no two entries have the same. -/
theorem apply_reordered (m : Model) :
    ((m.issues.map (·.id)).Nodup → ∀ m' : Model, m.Reordered m' →
      ∀ (f : Filter) (i : Issue), SameOutcome (f.apply m i) (f.apply m' i)) ∧
    ∀ (q : Qualifier) (text : String) (i : Issue), q.content.asText? = some text →
      (q.kind = .milestone → (m.milestones.map fun x => Text.lower x.title).Nodup →
        ∀ x ∈ m.milestones, Text.lower x.title = Text.lower text →
          q.apply m i = .ok { i with milestone := some x }) ∧
      (q.kind = .label → (m.labels.map fun l => Text.lower l.fullName).Nodup →
        ∀ l ∈ m.labels, Text.lower l.fullName = Text.lower text →
          q.apply m i = .ok { i with labels := Issue.addLabel l i.labels }) ∧
      (q.kind = .assignee → (m.users.map fun u => Text.lower u.login).Nodup →
        ∀ u ∈ m.users, Text.lower u.login = Text.lower text →
          q.apply m i = .ok { i with assignee := some u }) := by
  refine ⟨fun hid m' h f i => f.apply_of_reordered h hid i, fun q text i htext => ?_⟩
  unfold Qualifier.apply
  refine ⟨fun hk hdistinct x hx hquery => ?_, fun hk hdistinct l hl hquery => ?_, fun hk hdistinct u hu hquery => ?_⟩
  · rw [hk]
    exact Qualifier.resolved_eq_ok_iff.2 ⟨text, x, htext, resolve_of_exact hx hquery hdistinct, rfl⟩
  · rw [hk]
    exact Qualifier.resolved_eq_ok_iff.2 ⟨text, l, htext, resolve_of_exact hl hquery hdistinct, rfl⟩
  · rw [hk]
    exact Qualifier.resolved_eq_ok_iff.2 ⟨text, u, htext, resolve_of_exact hu hquery hdistinct, rfl⟩

/-- A label that another one contains, and a parent given by its title. -/
theorem apply_reordered_bug :
    let now : Instant := ⟨⟨2024, 1, 1, by decide⟩, 0, 0, by decide⟩
    let epic : Issue := ⟨1, "Epic: storage", "", "ada", now, now, .opened, .issue, none, none, [], none, 0⟩
    let i : Issue := ⟨2, "Index", "", "ada", now, now, .opened, .issue, none, none, [], none, 0⟩
    let m : Model := ⟨[epic, i], [⟨"bug"⟩, ⟨"type.bug"⟩], [], []⟩
    let m' : Model := ⟨[i, epic], [⟨"type.bug"⟩, ⟨"bug"⟩], [], []⟩
    let label : Qualifier := .named "label" (.text "Bug")
    let f : Filter := and (leaf label) (leaf (.named "parent" (.text "storage")))
    let after : Issue := { i with labels := [⟨"bug"⟩], parent := some 1 }
    (m.issues.map (·.id)).Nodup ∧ m.Reordered m' ∧ f.apply m i = .ok after ∧ f.apply m' i = .ok after ∧
      label.apply m i = .ok { i with labels := [⟨"bug"⟩] } := by
  intro now epic i m m' label f after
  have hid : (m.issues.map (·.id)).Nodup := by decide +kernel
  have hreordered : m.Reordered m' :=
    ⟨by decide +kernel, by decide +kernel, by decide +kernel, by decide +kernel⟩
  have happly : f.apply m i = .ok after := by decide +kernel
  obtain ⟨hsame, hexact⟩ := apply_reordered m
  refine ⟨hid, hreordered, happly, ((hsame hid m' hreordered f i).ok_iff after).1 happly, ?_⟩
  exact (hexact label "Bug" i rfl).2.1 (by decide +kernel) (by decide +kernel) ⟨"bug"⟩ (by decide +kernel)
    (by decide +kernel)

end Filter

end IssueQuery
