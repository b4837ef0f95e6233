/-
What becomes of a filter that is written and read again. Its conjuncts stay, but a negation that
stands behind two conjuncts or more clings to the last of them.
-/
import IssueQuery.Proofs.Filter.Grouping

namespace IssueQuery.Filter

def isNegation : Filter → Bool
  | not _ => true
  | _ => false

def isJoined : Filter → Bool
  | and .. => true
  | _ => false

/-- The conjuncts of a filter as its text shows them: what stands first, and the others. -/
def row : Filter → Filter × List Term
  | leaf q => (leaf q, [])
  | and left right => (left.row.1, left.row.2 ++ [⟨right.isNegation, conjoin right.row.1 right.row.2⟩])
  | or left right => (or (conjoin left.row.1 left.row.2) (conjoin right.row.1 right.row.2), [])
  | not inner => (not (conjoin inner.row.1 inner.row.2), [])

/-- The filter that the text of a filter is read as. -/
def reread (f : Filter) : Filter := conjoin f.row.1 f.row.2

theorem row_eq_nil_iff {f : Filter} : f.row.2 = [] ↔ f.isJoined = false := by
  cases f <;> simp [row, isJoined]

theorem reread_eq {f : Filter} (h : f.row.2 = []) : f.reread = f.row.1 := by
  rw [reread, h]
  rfl

/-! ## The conjuncts stay -/

theorem conjuncts_reread (f : Filter) : f.reread.conjuncts = f.conjuncts := by
  induction f with
  | leaf q => rfl
  | and left right ihl ihr =>
    rw [reread, conjuncts_conjoin] at ihl
    rw [reread, conjuncts_conjoin, row, List.flatMap_append, ← List.append_assoc, ihl, conjuncts, ← ihr]
    simp [reread]
  | or left right ihl ihr =>
    rw [reread_eq rfl, row, conjuncts, conjuncts]
    rw [reread] at ihl ihr
    rw [ihl, ihr]
  | not inner ih =>
    rw [reread_eq rfl, row, conjuncts, conjuncts]
    rw [reread] at ih
    rw [ih]

/-! ## When the groups stay -/

/-- No negation stands behind two conjuncts or more. -/
def KeepsGroups : Filter → Prop
  | leaf _ => True
  | and left right => left.KeepsGroups ∧ right.KeepsGroups ∧ ¬ (left.isJoined = true ∧ right.isNegation = true)
  | or left right => left.KeepsGroups ∧ right.KeepsGroups
  | not inner => inner.KeepsGroups

theorem clustered_snoc {f : Filter} {xs : List Term} {x : Term} (hx : x.clings = false) :
    clustered f (xs ++ [x]) = ((clustered f xs).1, (clustered f xs).2 ++ [x.value]) := by
  induction xs generalizing f with
  | nil => simp [clustered, hx]
  | cons y ys ih =>
    rw [List.cons_append, clustered, ih, clustered]
    by_cases hy : y.clings = true <;> simp [hy]

theorem conjoin_snoc {f : Filter} {xs : List Term} {x : Term} (hx : xs = [] ∨ x.clings = false) :
    conjoin f (xs ++ [x]) = and (conjoin f xs) x.value := by
  cases xs with
  | nil => simp [conjoin, clustered]
  | cons y ys =>
    have hx := hx.resolve_left (by simp)
    simp [conjoin, clustered_snoc hx]

/-- A conjunct that clings is not a group of its own. -/
theorem exists_clustered_snoc (f : Filter) (xs : List Term) {x : Term} (hx : x.clings = true) :
    ∃ gs g h, (clustered f (xs ++ [x])).1 :: (clustered f (xs ++ [x])).2 = gs ++ [and g h] := by
  induction xs generalizing f with
  | nil => exact ⟨[], f, x.value, by simp [clustered, hx]⟩
  | cons y ys ih =>
    obtain ⟨gs, g, h, hgs⟩ := ih y.value
    rw [List.cons_append, clustered]
    by_cases hy : y.clings = true
    · -- what clings goes to the front of the first group, which may be the last one too
      cases gs with
      | nil =>
        obtain ⟨h1, h2⟩ := List.cons.inj hgs
        exact ⟨[], f, and g h, by simp [hy, h1, h2]⟩
      | cons e es =>
        obtain ⟨h1, h2⟩ := List.cons.inj hgs
        exact ⟨and f e :: es, g, h, by simp [hy, h1, h2]⟩
    · exact ⟨f :: gs, g, h, by simp [hy, hgs]⟩

theorem reread_and {left right : Filter} (h : left.isJoined = false ∨ right.isNegation = false) :
    (and left right).reread = and left.reread right.reread := by
  rw [← row_eq_nil_iff] at h
  exact conjoin_snoc h

theorem reread_and_ne {left right : Filter} (hl : left.isJoined = true) (hr : right.isNegation = true) :
    (and left right).reread ≠ and left right := by
  intro heq
  obtain ⟨y, ys, hys⟩ := List.exists_cons_of_ne_nil (mt row_eq_nil_iff.1 (by simp [hl]) : left.row.2 ≠ [])
  obtain ⟨gs, g, h, hgs⟩ := exists_clustered_snoc y.value ys (x := ⟨right.isNegation, right.reread⟩) hr
  rw [reread] at hgs
  have hfold : (and left right).reread = and (gs.foldl and left.row.1) (and g h) := by
    rw [reread, row, hys, List.cons_append, conjoin, hgs, List.foldl_append]
    rfl
  -- the right side would be a conjunction, but it is a negation
  rw [heq] at hfold
  injection hfold with _ hright
  rw [hright] at hr
  cases hr

/-- A filter is read again as itself if and only if no negation stands behind two conjuncts or more. -/
theorem reread_eq_self_iff (f : Filter) : f.reread = f ↔ f.KeepsGroups := by
  induction f with
  | leaf q => exact ⟨fun _ => trivial, fun _ => rfl⟩
  | and left right ihl ihr =>
    by_cases h : left.isJoined = true ∧ right.isNegation = true
    · refine ⟨fun heq => absurd heq (reread_and_ne h.1 h.2), ?_⟩
      rintro ⟨-, -, hn⟩
      exact absurd h hn
    · have h' : left.isJoined = false ∨ right.isNegation = false := by
        rw [not_and_or, Bool.not_eq_true, Bool.not_eq_true] at h
        exact h
      rw [reread_and h', KeepsGroups, ← ihl, ← ihr]
      simp [h]
  | or left right ihl ihr =>
    rw [reread_eq rfl, row, KeepsGroups, ← ihl, ← ihr]
    simp [reread]
  | not inner ih =>
    rw [reread_eq rfl, row, KeepsGroups, ← ih]
    simp [reread]

end IssueQuery.Filter
