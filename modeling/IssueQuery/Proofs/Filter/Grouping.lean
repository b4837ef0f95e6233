/-
How a row of conjuncts is grouped. Between conjuncts the groups run to the left, but a negation
whose sign is left out clings to the conjunct before it, unless that is the first of all.
-/
import IssueQuery.Proofs.Filter.Conjuncts
import IssueQuery.Proofs.Filter.Reads

namespace IssueQuery.Filter

open Token (Shape)

/-! ## Operands -/

/-- The tokens are an operand, whatever settled text follows. -/
def IsOperand (us : List Shape) (f : Filter) : Prop :=
  ∀ rest, Settled rest → Reads .operand (us ++ rest) f rest

theorem Reads.head_kind {task : Task} {ss rest : List Shape} {f : Filter} (h : Reads task ss f rest)
    (ht : task = .operand) : ∃ s us, ss = s :: us ∧
      s.kind ∈ [Token.Kind.symbol, .quote, .qualifier, .not, .openBracket] := by
  cases h with
  | symbol hk => exact ⟨_, _, rfl, by simp [hk]⟩
  | quoted hq =>
    cases hq with
    | mk ho => exact ⟨_, _, rfl, by simp [ho]⟩
  | qualifier hk => exact ⟨_, _, rfl, by simp [hk]⟩
  | not hk => exact ⟨_, _, rfl, by simp [hk]⟩
  | brackets hk => exact ⟨_, _, rfl, by simp [hk]⟩
  | _ => cases ht

theorem IsOperand.ne_nil {us : List Shape} {f : Filter} (h : IsOperand us f) : us ≠ [] := by
  rintro rfl
  obtain ⟨s, us, hnil, -⟩ := (h [] (avoids_nil _)).head_kind rfl
  cases hnil

theorem IsOperand.kind {s : Shape} {us : List Shape} {f : Filter} (h : IsOperand (s :: us) f) :
    s.kind ≠ .and ∧ s.kind ≠ .or ∧ s.kind.power = if s.kind = .not then 3 else 2 := by
  obtain ⟨s', us', hs, hk⟩ := (h [] (avoids_nil _)).head_kind rfl
  cases hs
  simp only [List.mem_cons, List.not_mem_nil, or_false] at hk
  rcases hk with hk | hk | hk | hk | hk <;> rw [hk] <;> decide

theorem IsOperand.settled {s : Shape} {us : List Shape} {f : Filter} (h : IsOperand (s :: us) f)
    (vs : List Shape) : Settled (s :: vs) := by
  refine settled_of_power ?_
  rw [h.kind.2.2]
  split <;> omega

/-- An expression leaves nothing that binds more tightly than its level. -/
theorem Reads.bindsWithin {task : Task} {ss rest : List Shape} {f : Filter} (h : Reads task ss f rest) :
    match task with
    | .operand => True
    | .expression level => BindsWithin level rest
    | .chain level _ => BindsWithin level rest := by
  induction h with
  | expression _ _ _ ih => exact ih
  | stop hb => exact hb
  | and _ _ _ _ _ ih => exact ih
  | or _ _ _ _ _ ih => exact ih
  | juxtaposed _ _ _ _ _ _ ih => exact ih
  | _ => trivial

/-! ## Rows of conjuncts -/

/-- A conjunct after the first, and whether it clings to the one before. -/
structure Term where
  clings : Bool
  value : Filter

/-- The tokens are conjuncts after the first, each with a sign before it or without. -/
inductive IsTail : List Shape → List Term → Prop
  | nil : IsTail [] []
  | signed {sign : Shape} {us ts : List Shape} {f : Filter} {xs : List Term} :
    sign.kind = .and → IsOperand us f → IsTail ts xs → IsTail (sign :: (us ++ ts)) (⟨false, f⟩ :: xs)
  | bare {s : Shape} {us ts : List Shape} {f : Filter} {xs : List Term} :
    IsOperand (s :: us) f → IsTail ts xs → IsTail (s :: (us ++ ts)) (⟨s.kind == .not, f⟩ :: xs)

theorem IsTail.append {ts us : List Shape} {xs ys : List Term} (h : IsTail ts xs) (h' : IsTail us ys) :
    IsTail (ts ++ us) (xs ++ ys) := by
  induction h with
  | nil => exact h'
  | signed hk ho _ ih =>
    rw [List.cons_append, List.append_assoc]
    exact .signed hk ho ih
  | bare ho _ ih =>
    rw [List.cons_append, List.append_assoc]
    exact .bare ho ih

theorem IsTail.signed_snoc {ts us : List Shape} {xs : List Term} {sign : Shape} {f : Filter} (h : IsTail ts xs)
    (hk : sign.kind = .and) (hf : IsOperand us f) : IsTail (ts ++ sign :: us) (xs ++ [⟨false, f⟩]) := by
  have h' := IsTail.signed hk hf .nil
  rw [List.append_nil] at h'
  exact h.append h'

theorem IsTail.bare_snoc {ts us : List Shape} {xs : List Term} {f : Filter} (h : IsTail ts xs)
    (hf : IsOperand us f) : IsTail (ts ++ us) (xs ++ [⟨us.head?.any (·.kind == .not), f⟩]) := by
  obtain ⟨s, us, rfl⟩ := List.exists_cons_of_ne_nil hf.ne_nil
  have h' := IsTail.bare hf .nil
  rw [List.append_nil] at h'
  exact h.append h'

/-- The first conjunct with the negations that cling to it, and the groups of those after it. -/
def clustered (f : Filter) : List Term → Filter × List Filter
  | [] => (f, [])
  | x :: xs =>
    let (g, gs) := clustered x.value xs
    if x.clings then (and f g, gs) else (f, g :: gs)

/-- The row as the parser groups it. Nothing clings to the first conjunct of all. -/
def conjoin (f : Filter) : List Term → Filter
  | [] => f
  | x :: xs => ((clustered x.value xs).1 :: (clustered x.value xs).2).foldl and f

/-- Further conjuncts, read up to a text that binds loosely: the first of them with what clings to
it, and then the other groups, one by one, whatever stands to the left. -/
theorem IsTail.reads_cluster {ts rest : List Shape} {xs : List Term} (h : IsTail ts xs) (hs : Settled rest)
    (hb : BindsWithin 1 rest) {us : List Shape} {f : Filter} (hf : IsOperand us f) :
    ∃ ts', Reads (.expression 2) (us ++ (ts ++ rest)) (clustered f xs).1 (ts' ++ rest) ∧
      ∀ {level left g rest'}, level ≤ 1 → Reads (.chain level ((clustered f xs).2.foldl and left)) rest g rest' →
        Reads (.chain level left) (ts' ++ rest) g rest' := by
  induction h generalizing us f with
  | nil => exact ⟨[], .expression (hf rest hs) (.stop (hb.mono (by omega))), fun _ hg => hg⟩
  | @signed sign us' ts f' xs hk ho _ ih =>
    obtain ⟨ts', hread, hchain⟩ := ih ho
    have hpower : sign.kind.power = 2 := by rw [hk]; rfl
    -- the sign ends the operand, and the chain takes it with the cluster behind it
    refine ⟨sign :: (us' ++ ts), .expression (hf _ (settled_of_power (by omega))) (.stop ?_), ?_⟩
    · exact bindsWithin_cons.2 hpower.le
    · intro level left g rest' hl hg
      rw [← List.append_assoc] at hread
      exact .and hk (by omega) hread (hchain hl hg)
  | @bare s us' ts f' xs ho _ ih =>
    obtain ⟨ts', hread, hchain⟩ := ih ho
    obtain ⟨hand, hor, hpower⟩ := ho.kind
    rw [← List.append_assoc] at hread
    by_cases hk : s.kind = .not
    · -- a negation binds more tightly than a conjunction, so it belongs to the operand before it
      rw [if_pos hk] at hpower
      simp only [clustered, hk, beq_self_eq_true, if_true]
      refine ⟨ts', .expression (hf _ (ho.settled _)) ?_, hchain⟩
      exact .juxtaposed hand hor (by omega) hread (.stop hread.bindsWithin)
    · -- anything else begins a group of its own
      rw [if_neg hk] at hpower
      simp only [clustered, beq_eq_false_iff_ne.2 hk, Bool.false_eq_true, if_false]
      refine ⟨s :: (us' ++ ts), .expression (hf _ (ho.settled _)) (.stop (bindsWithin_cons.2 hpower.le)), ?_⟩
      intro level left g rest' hl hg
      exact .juxtaposed hand hor (by omega) hread (hchain hl hg)

/-- A row of conjuncts at a level that takes all of them. -/
theorem IsTail.reads_conjoin {ts rest rest' : List Shape} {xs : List Term} (h : IsTail ts xs) (hs : Settled rest)
    (hb : BindsWithin 1 rest) {us : List Shape} {f g : Filter} (hf : IsOperand us f) {level : Nat} (hl : level ≤ 1)
    (hg : Reads (.chain level (conjoin f xs)) rest g rest') :
    Reads (.expression level) (us ++ (ts ++ rest)) g rest' := by
  cases h with
  | nil => exact .expression (hf rest hs) hg
  | @signed sign us' ts f' xs hk ho htail =>
    obtain ⟨ts', hread, hchain⟩ := htail.reads_cluster hs hb ho
    have hpower : sign.kind.power = 2 := by rw [hk]; rfl
    rw [← List.append_assoc] at hread
    exact .expression (hf _ (settled_of_power (by omega))) (.and hk (by omega) hread (hchain hl hg))
  | @bare s us' ts f' xs ho htail =>
    obtain ⟨ts', hread, hchain⟩ := htail.reads_cluster hs hb ho
    obtain ⟨hand, hor, hpower⟩ := ho.kind
    have hlt : level < s.kind.power := by rw [hpower]; split <;> omega
    rw [← List.append_assoc] at hread
    exact .expression (hf _ (ho.settled _)) (.juxtaposed hand hor hlt hread (hchain hl hg))

/-! ## The conjuncts of a row -/

theorem conjuncts_clustered (f : Filter) (xs : List Term) :
    (clustered f xs).1.conjuncts ++ (clustered f xs).2.flatMap conjuncts =
      f.conjuncts ++ xs.flatMap fun x => x.value.conjuncts := by
  induction xs generalizing f with
  | nil => simp [clustered]
  | cons x xs ih =>
    rw [List.flatMap_cons, ← ih]
    by_cases hx : x.clings = true
    · simp [clustered, hx, conjuncts]
    · simp [clustered, hx]

theorem conjuncts_conjoin (f : Filter) (xs : List Term) :
    (conjoin f xs).conjuncts = f.conjuncts ++ xs.flatMap fun x => x.value.conjuncts := by
  cases xs with
  | nil => simp [conjoin]
  | cons x xs =>
    rw [conjoin, map_foldl (F := conjuncts) (fun _ _ => rfl), List.flatMap_cons, conjuncts_clustered]
    rfl

end IssueQuery.Filter
