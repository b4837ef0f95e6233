/-
Filters that cannot be applied. A qualifier of a kind that is not applicable is refused for one reason,
whatever its content, the model and the issue; so a conjunction that has such a qualifier always fails, and
an application of it gives the reason of the first of them.
-/
import IssueQuery.Proofs.Filter.Quoting
import IssueQuery.Proofs.Project.Applications

namespace IssueQuery

/-! ## Qualifiers -/

namespace Qualifier

/-- No issue of any model can be changed to satisfy the qualifier, for the reason given. -/
def IsRefused (q : Qualifier) (e : ApplyError) : Prop := ∀ m i, q.apply m i = .error e

variable {name : String}

theorem exists_isRefused (h : (Kind.ofName name).isApplicable = false) : ∃ e, ∀ c, (named name c).IsRefused e := by
  cases hkind : Kind.ofName name
  case empty | milestone | parent | label | assignee | state | sort | field =>
    rw [hkind] at h
    cases h
  all_goals
    apply Exists.intro
    intro c m i
    simp only [apply, kind, hkind, Qualifier.name]
    rfl

/-- In a model whose entries all have one name, that name can be applied to an issue. -/
theorem exists_apply_eq_ok (h : (Kind.ofName name).isApplicable = true) :
    ∃ c m i after, (named name c).apply m i = .ok after := by
  let m : Model := ⟨[.ofText "open"], [⟨"open"⟩], [⟨1, "open", none, true⟩], [⟨"open", none, none⟩]⟩
  have hsome : ((named name (.text "open")).apply m { Issue.ofText "" with id := 2 }).toOption.isSome = true := by
    cases hkind : Kind.ofName name
    case empty | milestone | parent | label | assignee | state | sort | field =>
      simp only [apply, kind, hkind, content]
      decide +kernel
    all_goals
      rw [hkind] at h
      cases h
  obtain ⟨after, hafter⟩ := Option.isSome_iff_exists.1 hsome
  exact ⟨_, _, _, after, eq_ok_of_toOption hafter⟩

/-- The kinds that are not applicable are those that are refused whatever their content. -/
theorem isApplicable_eq_false_iff :
    (Kind.ofName name).isApplicable = false ↔ ∃ e, ∀ c, (named name c).IsRefused e := by
  refine ⟨exists_isRefused, fun ⟨e, he⟩ => ?_⟩
  by_contra happ
  obtain ⟨c, m, i, after, hafter⟩ := exists_apply_eq_ok (Bool.not_eq_false _ ▸ happ)
  rw [he c m i] at hafter
  cases hafter

/-- A qualifier that is not applicable is refused, for a reason of its own. -/
theorem exists_isRefused_of_isApplicable {q : Qualifier} (h : q.isApplicable = false) : ∃ e, q.IsRefused e := by
  cases q with
  | empty => cases h
  | named name content =>
    have hkind : (Kind.ofName name).isApplicable = false := h
    obtain ⟨e, he⟩ := isApplicable_eq_false_iff.1 hkind
    exact ⟨e, he content⟩

end Qualifier

/-! ## Filters -/

namespace Filter

variable {m : Model} {f : Filter} {q : Qualifier} {e : ApplyError}

/-- A conjunction fails if one of its qualifiers does in any case. -/
theorem exists_apply_eq_error (h : f.isConjunction = true) (hq : q ∈ f.qualifiers) (he : q.IsRefused e) (m : Model)
    (i : Issue) : ∃ e, e ≠ .notConjunction ∧ f.apply m i = .error e := by
  have hgives := apply_gives (m := m) (i := i) h
  cases hresult : f.apply m i with
  | error e' => exact ⟨e', fun hstuck => hgives.ne_error (hstuck ▸ hresult), rfl⟩
  | ok after =>
    exfalso
    induction f generalizing i after with
    | leaf p =>
      obtain rfl := List.mem_singleton.1 hq
      cases (he m i).symm.trans hresult
    | and left right ihl ihr =>
      rw [isConjunction, Bool.and_eq_true] at h
      obtain ⟨staged, hleft, hright⟩ := bind_eq_ok_iff.1 hresult
      rcases List.mem_append.1 hq with hq | hq
      · exact ihl h.1 hq i (apply_gives h.1) staged hleft
      · exact ihr h.2 hq staged (apply_gives h.2) after hright
    | or left right | not inner => cases h

/-- The first qualifier that is not applicable gives the reason for a conjunction. -/
theorem whyNotApplicable_of_first {before after : List Qualifier} (h : f.isConjunction = true)
    (hf : f.qualifiers = before ++ q :: after) (hbefore : ∀ p ∈ before, p.isApplicable = true)
    (hq : q.isApplicable = false) (he : q.IsRefused e) (m : Model) (i : Issue) :
    f.whyNotApplicable m i = .filter (.inapplicable e) := by
  unfold whyNotApplicable
  rw [if_pos h, hf, List.findSome?_append, List.findSome?_eq_none_iff.2 fun p hp => if_pos (hbefore p hp),
    Option.none_or, List.findSome?_cons, if_neg (Bool.eq_false_iff.1 hq), he m i]

/-- Where there is no such qualifier, or not only conjunction, the filter itself is the reason. -/
theorem whyNotApplicable_of_forall (h : f.isConjunction = true → ∀ q ∈ f.qualifiers, q.isApplicable = true) (m : Model)
    (i : Issue) : f.whyNotApplicable m i = .notApplicable f := by
  unfold whyNotApplicable
  split
  · rename_i hconjunction
    rw [List.findSome?_eq_none_iff.2 fun q hq => if_pos (h hconjunction q hq)]
  · rfl

end Filter

/-! ## Applications -/

namespace Model

theorem perform_of_isApplicable_eq_false {m : Model} {a : Application} {i : Issue} (hi : m.issue? a.id = some i)
    (hempty : a.filter.isEmpty = false) (happ : a.filter.isApplicable = false) :
    m.perform a = (.error (a.filter.whyNotApplicable m i), m) := by
  have happly : m.applyFilter a.id a.filter = .error (a.filter.whyNotApplicable m i) := by
    simp [applyFilter, hempty, hi, happ, throw, throwThe, MonadExceptOf.throw, bind, Except.bind]
  rw [perform, happly]

end Model

namespace Filter

/-- A conjunction with a qualifier that is not applicable fails for every issue of every model and leaves the
issue as it was. An application of a filter that cannot be applied leaves the model as it was. If the filter
is a conjunction with such a qualifier, it gives the reason of the first of them, which is the same for every
issue, even if a qualifier before it would have failed; otherwise it gives the filter. -/
theorem applyTo_perform_refused (f : Filter) :
    (f.isConjunction = true → ∀ q ∈ f.qualifiers, q.isApplicable = false → ∀ m i,
      ∃ e, e ≠ .notConjunction ∧ f.applyTo m i = (.error e, i)) ∧
    (f.isEmpty = false → f.isApplicable = false →
      ∀ (m : Model) (id : UInt32) (commits : Bool), ∀ i, m.issue? id = some i →
      (f.isConjunction = true → ∀ before q after, f.qualifiers = before ++ q :: after →
        (∀ p ∈ before, p.isApplicable = true) → q.isApplicable = false →
        ∃ e, q.IsRefused e ∧ m.perform ⟨id, f, commits⟩ = (.error (.filter (.inapplicable e)), m)) ∧
      ((f.isConjunction = true → ∀ q ∈ f.qualifiers, q.isApplicable = true) →
        m.perform ⟨id, f, commits⟩ = (.error (.notApplicable f), m))) := by
  constructor
  · intro h q hq hinapplicable m i
    obtain ⟨e, he⟩ := Qualifier.exists_isRefused_of_isApplicable hinapplicable
    obtain ⟨e', hne, hfail⟩ := exists_apply_eq_error h hq he m i
    refine ⟨e', hne, ?_⟩
    rw [applyTo_eq, hfail]
  · intro hempty happ m id commits i hi
    have hperform := Model.perform_of_isApplicable_eq_false (a := ⟨id, f, commits⟩) hi hempty happ
    constructor
    · intro h before q after hf hbefore hq
      obtain ⟨e, he⟩ := Qualifier.exists_isRefused_of_isApplicable hq
      exact ⟨e, he, by rw [hperform, whyNotApplicable_of_first h hf hbefore hq he]⟩
    · intro h
      rw [hperform, whyNotApplicable_of_forall h]

/-- No milestone fits, but it is the number after it that is the reason. -/
theorem applyTo_perform_refused_id :
    let i : Issue := .ofText "Parser"
    let m : Model := ⟨[i], [], [], []⟩
    let f : Filter := .and (.leaf (.named "milestone" (.text "v9"))) (.leaf (.named "id" (.number 5)))
    f.applyTo m i = (.error (.noMatch "milestones" "v9"), i) ∧
      m.perform ⟨1, f, true⟩ = (.error (.filter (.inapplicable (.immutable .id))), m) := by
  intro i m f
  obtain ⟨hfails, hperform⟩ := applyTo_perform_refused f
  constructor
  · obtain ⟨e, -, he⟩ :=
      hfails (by decide) (.named "id" (.number 5)) (by decide) (by decide) m i
    have hreason : (f.applyTo m i).1 = .error (.noMatch "milestones" "v9") := by decide
    rw [he] at hreason
    cases hreason
    exact he
  · obtain ⟨hfirst, -⟩ := hperform (by decide) (by decide) m 1 true i (by decide)
    obtain ⟨e, he, hresult⟩ := hfirst (by decide) [.named "milestone" (.text "v9")] (.named "id" (.number 5)) []
      rfl (by decide) (by decide)
    have hreason : (Qualifier.named "id" (.number 5)).apply m i = .error (.immutable .id) := by decide
    rw [he] at hreason
    cases hreason
    exact hresult

end Filter

end IssueQuery
