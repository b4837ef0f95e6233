/-
The chain of an issue's parents, link by link. It may end at an issue without a parent or leave the
model, and it may run in a circle; an issue's ancestors are what stands on it, and each of them stands
among its first places, one more than there are issues. A walk along it that keeps what it has seen ends
there too.
-/
import IssueQuery.Proofs.Model.Ancestors

namespace IssueQuery.Model

open Relation (ReflTransGen)

/-- The parent of the first issue with the number, if there is one. -/
def parentOf? (m : Model) (id : UInt32) : Option UInt32 := (m.issue? id).bind (·.parent)

/-- The chain that begins with the issue's parent and goes on, from each number, with the parent of
the first issue that has it. -/
def lineage (m : Model) (i : Issue) : Nat → Option UInt32
  | 0 => i.parent
  | n + 1 => (m.lineage i n).bind m.parentOf?

variable {m : Model} {i : Issue} {a c d : UInt32} {j k n : Nat}

theorem isParent_iff : IsParent m.issues c d ↔ m.parentOf? c = some d := by
  unfold IsParent parentOf? issue?
  rw [Option.bind_eq_some_iff]

/-- The numbers on the chain are those that the parent's links lead to. -/
theorem exists_lineage_iff :
    (∃ n, m.lineage i n = some a) ↔ ∃ p, i.parent = some p ∧ ReflTransGen (IsParent m.issues) p a := by
  constructor
  · rintro ⟨n, hn⟩
    induction n generalizing a with
    | zero => exact ⟨a, hn, .refl⟩
    | succ n ih =>
      rw [lineage, Option.bind_eq_some_iff] at hn
      obtain ⟨c, hc, hca⟩ := hn
      obtain ⟨p, hp, hpath⟩ := ih hc
      exact ⟨p, hp, hpath.tail (isParent_iff.2 hca)⟩
  · rintro ⟨p, hp, hpath⟩
    induction hpath with
    | refl => exact ⟨0, hp⟩
    | tail _ hstep ih =>
      obtain ⟨n, hn⟩ := ih
      refine ⟨n + 1, ?_⟩
      rw [lineage, hn, Option.bind_some]
      exact isParent_iff.1 hstep

/-! ## Chains that turn back -/

/-- From equal places on, the chain goes on alike. -/
theorem lineage_add_eq (h : m.lineage i j = m.lineage i k) (n : Nat) : m.lineage i (j + n) = m.lineage i (k + n) := by
  induction n with
  | zero => exact h
  | succ n ih => rw [← Nat.add_assoc, ← Nat.add_assoc, lineage, lineage, ih]

/-- Before any place of the chain stand numbers of issues in the model. -/
theorem exists_issue_of_lineage (h : m.lineage i n = some a) (hk : k < n) :
    ∃ x ∈ m.issues, m.lineage i k = some x.id := by
  induction n generalizing a with
  | zero => omega
  | succ n ih =>
    rw [lineage, Option.bind_eq_some_iff] at h
    obtain ⟨c, hc, hca⟩ := h
    rcases Nat.lt_succ_iff_lt_or_eq.1 hk with hlt | rfl
    · exact ih hc hlt
    · obtain ⟨x, hx, -⟩ := Option.bind_eq_some_iff.1 hca
      exact ⟨x, mem_of_issue? hx, by rw [hc, id_of_issue? hx]⟩

/-- The first place of a number on the chain: none stands on it twice before, so it lies among the
first, one more than there are issues. -/
theorem exists_lineage_le (h : m.lineage i n = some a) : ∃ k ≤ m.issues.length, m.lineage i k = some a := by
  classical
  have hex : ∃ n, m.lineage i n = some a := ⟨n, h⟩
  let first := Nat.find hex
  have hfirst : m.lineage i first = some a := Nat.find_spec hex
  have hnodup : ((List.range first).map (m.lineage i)).Nodup := by
    rw [List.nodup_map_iff_inj_on List.nodup_range]
    -- a shorter way to `a` would leave out the circle between two equal places
    have hshort {j k : Nat} (hjk : j < k) (hk : k < first) : m.lineage i j ≠ m.lineage i k := by
      intro heq
      have hlater := lineage_add_eq heq (first - k)
      rw [Nat.add_sub_cancel' hk.le, hfirst] at hlater
      exact Nat.find_min hex (show j + (first - k) < first by omega) hlater
    intro j hj k hk heq
    rw [List.mem_range] at hj hk
    rcases Nat.lt_trichotomy j k with hjk | hjk | hjk
    · exact absurd heq (hshort hjk hk)
    · exact hjk
    · exact absurd heq.symm (hshort hjk hj)
  have hsubset : (List.range first).map (m.lineage i) ⊆ m.issues.map fun x => some x.id := by
    intro x hx
    obtain ⟨k, hk, rfl⟩ := List.mem_map.1 hx
    obtain ⟨y, hy, hk⟩ := exists_issue_of_lineage hfirst (List.mem_range.1 hk)
    exact List.mem_map.2 ⟨y, hy, hk.symm⟩
  have hle := (hnodup.subperm hsubset).length_le
  rw [List.length_map, List.length_range, List.length_map] at hle
  exact ⟨first, hle, hfirst⟩

/-- In every model the search for an ancestor ends and finds just the numbers on the chain of the
issue's parents; however the chain runs, it need not be followed for more links than there are
issues. -/
theorem hasAncestor_spec (m : Model) (i : Issue) (a : UInt32) :
    (m.hasAncestor i a = true ↔ ∃ n, m.lineage i n = some a) ∧
      (m.hasAncestor i a = true ↔ ∃ n ≤ m.issues.length, m.lineage i n = some a) := by
  have hiff : m.hasAncestor i a = true ↔ ∃ n, m.lineage i n = some a := by
    rw [hasAncestor_iff, exists_lineage_iff]
  refine ⟨hiff, hiff.trans ⟨?_, ?_⟩⟩
  · rintro ⟨n, hn⟩
    exact exists_lineage_le hn
  · rintro ⟨n, -, hn⟩
    exact ⟨n, hn⟩

/-- Two issues that are each other's parents, above a third whose own number is nowhere on its
chain. -/
example :
    let now : Instant := ⟨⟨2024, 1, 1, by decide⟩, 0, 0, by decide⟩
    let issue (id : UInt32) (parent : Option UInt32) : Issue :=
      ⟨id, "Index", "", "ada", now, now, .opened, .issue, none, none, [], parent, 0⟩
    let m : Model := ⟨[issue 1 (some 2), issue 2 (some 1), issue 3 (some 1)], [], [], []⟩
    m.hasAncestor (issue 3 (some 1)) 2 = true ∧ m.hasAncestor (issue 3 (some 1)) 3 = false := by
  decide +kernel

/-! ## The chain followed with what was seen -/

/-- Follows the chain from a number and keeps the numbers that were seen, of which one ends the walk when it
comes again. There is no answer if the walk is not done after so many rounds. -/
def climb? (m : Model) (ancestor : UInt32) : Nat → List UInt32 → Option UInt32 → Option Bool
  | _, _, none => some false
  | 0, _, some _ => none
  | rounds + 1, seen, some current =>
    if current = ancestor then some true
    else if current ∈ seen then some false
    else m.climb? ancestor rounds (current :: seen) (m.parentOf? current)

section Seen

variable {seen : List UInt32}

/-- The issues whose numbers have not been seen. -/
def unseen (m : Model) (seen : List UInt32) : List Issue := m.issues.filter (·.id ∉ seen)

theorem unseen_cons (m : Model) (c : UInt32) (seen : List UInt32) :
    m.unseen (c :: seen) = (m.unseen seen).filter (·.id != c) := by
  unfold unseen
  rw [List.filter_filter]
  refine List.filter_congr fun x _ => ?_
  rw [Bool.eq_iff_iff]
  simp

theorem find?_unseen (m : Model) (hc : c ∉ seen) : (m.unseen seen).find? (·.id == c) = m.issue? c := by
  unfold unseen issue?
  rw [List.find?_filter]
  congr 1
  funext x
  by_cases hx : x.id = c <;> simp [hx, hc]

theorem find?_unseen_eq_none (m : Model) (hc : c ∈ seen) : (m.unseen seen).find? (·.id == c) = none := by
  refine List.find?_eq_none.2 fun x hx hxc => ?_
  rw [← eq_of_beq hxc] at hc
  exact absurd hc (by simpa using (List.mem_filter.1 hx).2)

theorem climbsTo_eq_of_ne {issues : List Issue} (hca : c ≠ a) : climbsTo a issues (some c) =
    ((issues.find? (·.id == c)).map fun x => climbsTo a (issues.filter (·.id != c)) x.parent).getD false := by
  rw [Bool.eq_iff_iff, climbsTo_some_iff, or_iff_right hca]
  cases issues.find? (·.id == c) <;> simp

/-- The walk takes what was seen out of the issues, one at least in each round but the last. -/
theorem climb?_eq {rounds : Nat} (h : (m.unseen seen).length < rounds) (start : Option UInt32) :
    m.climb? a rounds seen start = some (climbsTo a (m.unseen seen) start) := by
  induction rounds generalizing seen start with
  | zero => omega
  | succ rounds ih =>
    cases start with
    | none => rw [climb?, climbsTo]
    | some c =>
      rw [climb?]
      split
      · rename_i hca
        rw [climbsTo_some_iff.2 (.inl hca)]
      · rename_i hca
        rw [climbsTo_eq_of_ne hca]
        split
        · rename_i hseen
          rw [find?_unseen_eq_none m hseen]
          rfl
        · rename_i hseen
          rw [find?_unseen m hseen, ← unseen_cons, parentOf?]
          cases hx : m.issue? c with
          | none => rw [Option.bind_none, climb?]; rfl
          | some x =>
            have hlt : (m.unseen (c :: seen)).length < (m.unseen seen).length := by
              rw [unseen_cons, List.length_filter_lt_length_iff_exists]
              rw [← find?_unseen m hseen] at hx
              exact ⟨x, List.mem_of_find?_eq_some hx, by simpa using List.find?_some hx⟩
            exact ih (by omega) x.parent

end Seen

/-- The walk with what was seen gives the answer of the search, within one round more than there are issues. -/
theorem climb?_eq_hasAncestor (m : Model) (i : Issue) (a : UInt32) :
    m.climb? a (m.issues.length + 1) [] i.parent = some (m.hasAncestor i a) := by
  have hall : m.unseen [] = m.issues := List.filter_eq_self.2 (by simp)
  rw [climb?_eq (by rw [hall]; exact Nat.lt_succ_self _), hall, hasAncestor]

end IssueQuery.Model
