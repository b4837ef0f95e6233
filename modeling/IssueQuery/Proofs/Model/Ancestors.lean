/-
Ancestors as paths along parent links. The walk that looks for an ancestor finds every one, although
it never visits an issue twice; and an issue may get any new parent that it is not an ancestor of.
-/
import Mathlib
import IssueQuery.Model

namespace IssueQuery

open Relation (ReflTransGen TransGen)

/-! ## Paths -/

section Paths

variable {α : Type} {r r' : α → α → Prop} {a b c p : α}

/-- A path that ends elsewhere leaves its first point for the last time. -/
theorem exists_last_departure (h : ReflTransGen r c a) :
    c = a ∨ ∃ d, r c d ∧ ReflTransGen (fun x y => x ≠ c ∧ r x y) d a := by
  induction h with
  | refl => exact .inl rfl
  | @tail b a _ hba ih =>
    by_cases hb : b = c
    · subst hb
      exact .inr ⟨a, hba, .refl⟩
    · rcases ih with rfl | ⟨d, hd, hdb⟩
      · exact absurd rfl hb
      · exact .inr ⟨d, hd, hdb.tail ⟨hb, hba⟩⟩

/-- What leads to `a` hangs on no link from `a`. -/
theorem path_of_agrees (hr : ∀ x y, x ≠ a → r x y → r' x y) (h : ReflTransGen r c a) : ReflTransGen r' c a := by
  induction h using ReflTransGen.head_induction_on with
  | refl => exact .refl
  | @head b _ hstep _ ih =>
    by_cases hb : b = a
    · rw [hb]
    · exact .head (hr _ _ hb hstep) ih

/-- Where a link from `c` to `p` is added and no path led from `p` to `c`, a path uses it once at
most. -/
theorem path_of_added (hr : ∀ x y, r' x y → r x y ∨ x = c ∧ y = p) (hp : ¬ ReflTransGen r p c)
    (h : ReflTransGen r' a b) : ReflTransGen r a b ∨ ReflTransGen r a c ∧ ReflTransGen r p b := by
  induction h with
  | refl => exact .inl .refl
  | tail _ hstep ih =>
    rcases hr _ _ hstep with hstep | ⟨rfl, rfl⟩
    · exact ih.imp (·.tail hstep) fun ⟨hac, hpb⟩ => ⟨hac, hpb.tail hstep⟩
    · rcases ih with hac | ⟨-, hpc⟩
      · exact .inr ⟨hac, .refl⟩
      · exact absurd hpc hp

/-- Such a link closes no cycle. -/
theorem irreflexive_of_added (hr : ∀ x y, r' x y → r x y ∨ x = c ∧ y = p) (hp : ¬ ReflTransGen r p c)
    (hirr : ∀ x, ¬ TransGen r x x) (x : α) : ¬ TransGen r' x x := by
  intro h
  obtain ⟨y, hxy, hyx⟩ := TransGen.head'_iff.1 h
  rcases hr x y hxy with hstep | ⟨rfl, rfl⟩
  · rcases path_of_added hr hp hyx with hyx | ⟨hyc, hpx⟩
    · exact hirr x (.head' hstep hyx)
    · exact hp ((hpx.tail hstep).trans hyc)
  · rcases path_of_added hr hp hyx with hpc | ⟨hpc, -⟩
    · exact hp hpc
    · exact hp hpc

end Paths

/-! ## Parents -/

namespace Model

theorem id_of_issue? {m : Model} {id : UInt32} {i : Issue} (h : m.issue? id = some i) : i.id = id := by
  simpa using List.find?_some h

theorem mem_of_issue? {m : Model} {id : UInt32} {i : Issue} (h : m.issue? id = some i) : i ∈ m.issues :=
  List.mem_of_find?_eq_some h

/-- The first issue of number `c` has the parent `d`, whether there is an issue of that number or
not. -/
def IsParent (issues : List Issue) (c d : UInt32) : Prop := ∃ i, issues.find? (·.id == c) = some i ∧ i.parent = some d

/-- Without the issues of one number, the others have the parents they had. -/
theorem isParent_filter_iff {issues : List Issue} {c x y : UInt32} :
    IsParent (issues.filter (·.id != c)) x y ↔ x ≠ c ∧ IsParent issues x y := by
  unfold IsParent
  by_cases hx : x = c
  · subst hx
    have hnone : (issues.filter (·.id != x)).find? (·.id == x) = none :=
      List.find?_eq_none.2 fun i hi => by simpa using (List.mem_filter.1 hi).2
    simp [hnone]
  · have hfind : (issues.filter (·.id != c)).find? (·.id == x) = issues.find? (·.id == x) := by
      rw [List.find?_filter]
      congr 1
      funext i
      by_cases hi : i.id = x <;> simp [hi, hx]
    rw [hfind, and_iff_right hx]

theorem climbsTo_some_iff {a c : UInt32} {issues : List Issue} : climbsTo a issues (some c) = true ↔
    c = a ∨ ∃ i, issues.find? (·.id == c) = some i ∧ climbsTo a (issues.filter (·.id != c)) i.parent = true := by
  rw [climbsTo, Bool.or_eq_true, beq_iff_eq]
  refine or_congr_right ?_
  split
  · rename_i hnone
    simp [hnone]
  · rename_i i hi
    simp [hi]

/-- The walk up the parents finds the ancestors. -/
theorem climbsTo_iff {a : UInt32} {issues : List Issue} {start : Option UInt32} :
    climbsTo a issues start = true ↔ ∃ c, start = some c ∧ ReflTransGen (IsParent issues) c a := by
  induction hn : issues.length using Nat.strong_induction_on generalizing issues start with
  | _ n ih =>
    cases start with
    | none => simp [climbsTo]
    | some c =>
      -- past `c` there is one issue less at least
      have hnext {i : Issue} (hi : issues.find? (·.id == c) = some i) :
          climbsTo a (issues.filter (·.id != c)) i.parent = true ↔ ∃ d, i.parent = some d ∧
            ReflTransGen (fun x y => x ≠ c ∧ IsParent issues x y) d a := by
        have hlt : (issues.filter (·.id != c)).length < n := by
          rw [← hn, List.length_filter_lt_length_iff_exists]
          exact ⟨i, List.mem_of_find?_eq_some hi, by simpa using List.find?_some hi⟩
        have hrel : IsParent (issues.filter (·.id != c)) = fun x y => x ≠ c ∧ IsParent issues x y := by
          ext x y
          exact isParent_filter_iff
        rw [ih _ hlt rfl, hrel]
      rw [climbsTo_some_iff]
      constructor
      · rintro (rfl | ⟨i, hi, h⟩)
        · exact ⟨c, rfl, .refl⟩
        · obtain ⟨d, hd, hpath⟩ := (hnext hi).1 h
          exact ⟨c, rfl, .head ⟨i, hi, hd⟩ (ReflTransGen.mono (fun _ _ h => h.2) _ _ hpath)⟩
      · rintro ⟨_, hc, hpath⟩
        cases hc
        rcases exists_last_departure hpath with hca | ⟨d, ⟨i, hi, hd⟩, hpath⟩
        · exact .inl hca
        · exact .inr ⟨i, hi, (hnext hi).2 ⟨d, hd, hpath⟩⟩

theorem hasAncestor_iff {m : Model} {i : Issue} {a : UInt32} :
    m.hasAncestor i a = true ↔ ∃ p, i.parent = some p ∧ ReflTransGen (IsParent m.issues) p a := climbsTo_iff

/-! ## Models without cycles -/

/-- No issue is its own ancestor. -/
def Acyclic (m : Model) : Prop := ∀ id i, m.issue? id = some i → m.hasAncestor i id = false

/-- Only the issues that are found by their number have to be looked at. -/
theorem acyclic_iff_forall_mem {m : Model} :
    m.Acyclic ↔ ∀ i ∈ m.issues, m.issue? i.id = some i → m.hasAncestor i i.id = false := by
  constructor
  · intro h i _ hi
    exact h i.id i hi
  · intro h c i hi
    obtain rfl := id_of_issue? hi
    exact h i (mem_of_issue? hi) hi

instance (m : Model) : Decidable m.Acyclic := decidable_of_iff _ acyclic_iff_forall_mem.symm

theorem acyclic_iff {m : Model} : m.Acyclic ↔ ∀ c, ¬ TransGen (IsParent m.issues) c c := by
  constructor
  · intro h c hc
    obtain ⟨d, ⟨i, hi, hd⟩, hpath⟩ := TransGen.head'_iff.1 hc
    have := hasAncestor_iff.2 ⟨d, hd, hpath⟩
    rw [h c i hi] at this
    cases this
  · intro h c i hi
    by_contra hanc
    obtain ⟨d, hd, hpath⟩ := hasAncestor_iff.1 (eq_true_of_ne_false hanc)
    exact h c (TransGen.head'_iff.2 ⟨d, ⟨i, hi, hd⟩, hpath⟩)

/-- An issue of number `id` may get the parent `p`: it is in the model, is not the issue itself and
does not have it for an ancestor. -/
def AdmitsParent (m : Model) (id p : UInt32) : Prop :=
  p ≠ id ∧ ∃ target, m.issue? p = some target ∧ m.hasAncestor target id = false

/-! ## Updates -/

section Update

variable {m : Model} {id : UInt32} {before after : Issue}

theorem find?_updateFirst {issues : List Issue} (hid : after.id = id) (x : UInt32) :
    (updateFirst (·.id == id) (fun _ => after) issues).find? (·.id == x) =
      if x = id then (issues.find? (·.id == id)).map fun _ => after else issues.find? (·.id == x) := by
  induction issues with
  | nil => simp [updateFirst]
  | cons i issues ih =>
    rw [updateFirst]
    by_cases hi : i.id = id
    · by_cases hx : x = id
      · simp [hi, hx, hid]
      · simp [hi, hx, hid, Ne.symm hx]
    · by_cases hx : x = id
      · subst hx
        simp [hi, ih]
      · simp [hi, hx, ih, List.find?_cons]

theorem issue?_update (hbefore : m.issue? id = some before) (hid : after.id = id) (x : UInt32) :
    (m.update id fun _ => after).issue? x = if x = id then some after else m.issue? x := by
  unfold issue? at hbefore ⊢
  rw [update, find?_updateFirst hid, hbefore]
  rfl

/-- The issues of other numbers stay as they are. -/
theorem filter_updateFirst {issues : List Issue} (hid : after.id = id) :
    (updateFirst (·.id == id) (fun _ => after) issues).filter (·.id != id) = issues.filter (·.id != id) := by
  induction issues with
  | nil => rfl
  | cons i issues ih =>
    rw [updateFirst]
    by_cases hi : i.id = id
    · simp [hi, hid]
    · simp [hi, ih]

/-- An issue that is changed may get the parents that it might have got before. -/
theorem AdmitsParent.update {p : UInt32} (h : m.AdmitsParent id p) (hbefore : m.issue? id = some before)
    (hid : after.id = id) : (m.update id fun _ => after).AdmitsParent id p := by
  obtain ⟨hne, target, htarget, hanc⟩ := h
  refine ⟨hne, target, by rw [issue?_update hbefore hid, if_neg hne, htarget], ?_⟩
  rw [Bool.eq_false_iff, ne_eq, hasAncestor_iff] at hanc ⊢
  rintro ⟨d, hd, hpath⟩
  refine hanc ⟨d, hd, path_of_agrees (fun x y hx => ?_) hpath⟩
  rintro ⟨i, hi, hy⟩
  have hi : (m.update id fun _ => after).issue? x = some i := hi
  rw [issue?_update hbefore hid, if_neg hx] at hi
  exact ⟨i, hi, hy⟩

theorem Acyclic.update (h : m.Acyclic) (hbefore : m.issue? id = some before) (hid : after.id = id)
    (hparent : after.parent = before.parent ∨ ∃ p, after.parent = some p ∧ m.AdmitsParent id p) :
    (m.update id fun _ => after).Acyclic := by
  have hlinks {x y : UInt32} (hxy : IsParent (m.update id fun _ => after).issues x y) :
      IsParent m.issues x y ∨ x = id ∧ after.parent = some y := by
    obtain ⟨i, hi, hy⟩ := hxy
    have hi : (m.update id fun _ => after).issue? x = some i := hi
    rw [issue?_update hbefore hid] at hi
    split at hi
    · rename_i hx
      cases hi
      exact .inr ⟨hx, hy⟩
    · exact .inl ⟨i, hi, hy⟩
  rw [acyclic_iff] at h ⊢
  rcases hparent with hsame | ⟨p, hp, hne, target, htarget, hanc⟩
  · -- no link is new
    intro c hc
    refine h c (TransGen.mono (fun x y hxy => ?_) _ _ hc)
    rcases hlinks hxy with hxy | ⟨rfl, hy⟩
    · exact hxy
    · exact ⟨before, hbefore, hsame ▸ hy⟩
  · refine irreflexive_of_added (c := id) (p := p) (fun x y hxy => ?_) (fun hpath => ?_) h
    · refine (hlinks hxy).imp_right fun ⟨hx, hy⟩ => ⟨hx, ?_⟩
      rw [hp] at hy
      exact (Option.some.inj hy).symm
    · rcases ReflTransGen.cases_head hpath with hpid | ⟨d, ⟨i, hi, hd⟩, hpath⟩
      · exact hne hpid
      · have hi : m.issue? p = some i := hi
        rw [htarget] at hi
        cases hi
        have := hasAncestor_iff.2 ⟨d, hd, hpath⟩
        rw [hanc] at this
        cases this

end Update

end Model

end IssueQuery
