/-
How the parser reads expressions, as a relation between tokens wherever they stand. The parser
decides it whenever it stops where no qualifier would have gone on.
-/
import IssueQuery.Proofs.Filter.Content

namespace IssueQuery.Filter

open Token (Shape shape)

/-- The text does not go on with anything that would have belonged to a qualifier before it. -/
def Settled (ss : List Shape) : Prop := Avoids [.semicolon, .comma, .dots] ss

/-- The text ends here, or goes on with a token that binds no more tightly than `level`. -/
def BindsWithin (level : Nat) (ss : List Shape) : Prop := ∀ s ∈ ss.head?, s.kind.power ≤ level

@[simp] theorem bindsWithin_nil (level : Nat) : BindsWithin level [] := by simp [BindsWithin]

@[simp] theorem bindsWithin_cons {level : Nat} {s : Shape} {ss : List Shape} :
    BindsWithin level (s :: ss) ↔ s.kind.power ≤ level := by simp [BindsWithin]

/-- What the parser is about to read. -/
inductive Task
  | operand
  | expression (level : Nat)
  | chain (level : Nat) (left : Filter)

/-- The task turns the first of the tokens into a filter and leaves the others. -/
inductive Reads : Task → List Shape → Filter → List Shape → Prop
  | symbol {s : Shape} {rest : List Shape} :
    s.kind = .symbol → Reads .operand (s :: rest) (leaf (.keyword s.text)) rest
  | quoted {us rest : List Shape} {s : String} :
    IsQuoted us s → Reads .operand (us ++ rest) (leaf (.keyword s)) rest
  | qualifier {s : Shape} {us rest : List Shape} {f : Filter} :
    s.kind = .qualifier → IsChoice s.name us f → Settled rest → Reads .operand (s :: (us ++ rest)) f rest
  | not {s : Shape} {ss rest : List Shape} {f : Filter} :
    s.kind = .not → Reads (.expression 3) ss f rest → Reads .operand (s :: ss) (not f) rest
  | brackets {opening closing : Shape} {ss rest : List Shape} {f : Filter} :
    opening.kind = .openBracket → Reads (.expression 0) ss f (closing :: rest) → closing.kind = .closeBracket →
    Reads .operand (opening :: ss) f rest
  | expression {level : Nat} {ss us rest : List Shape} {f g : Filter} :
    Reads .operand ss f us → Reads (.chain level f) us g rest → Reads (.expression level) ss g rest
  | stop {level : Nat} {left : Filter} {rest : List Shape} :
    BindsWithin level rest → Reads (.chain level left) rest left rest
  | and {level : Nat} {left f g : Filter} {s : Shape} {ss us rest : List Shape} :
    s.kind = .and → level < 2 → Reads (.expression 2) ss f us → Reads (.chain level (and left f)) us g rest →
    Reads (.chain level left) (s :: ss) g rest
  | or {level : Nat} {left f g : Filter} {s : Shape} {ss us rest : List Shape} :
    s.kind = .or → level < 1 → Reads (.expression 1) ss f us → Reads (.chain level (or left f)) us g rest →
    Reads (.chain level left) (s :: ss) g rest
  | juxtaposed {level : Nat} {left f g : Filter} {s : Shape} {ss us rest : List Shape} :
    s.kind ≠ .and → s.kind ≠ .or → level < s.kind.power → Reads (.expression 2) (s :: ss) f us →
    Reads (.chain level (and left f)) us g rest → Reads (.chain level left) (s :: ss) g rest

/-! ## The readers, one step at a time -/

section Steps

variable {stop level : Nat} {t : Token} {ts rest : List Token} {f left : Filter}

theorem yields_closed_iff {inner : Reading Filter ts} : Yields (closed stop inner) f rest ↔
    inner.value = f ∧ ∃ t, inner.rest = t :: rest ∧ t.kind = .closeBracket := by
  unfold closed
  split
  · rename_i h
    constructor
    · intro h; exact absurd h not_yields_error
    · rintro ⟨-, t, ht, -⟩; rw [h] at ht; cases ht
  · rename_i t us h
    split
    · rename_i hk
      refine yields_pure.trans ?_
      constructor
      · rintro ⟨rfl, rfl⟩; exact ⟨rfl, t, h, hk⟩
      · rintro ⟨rfl, t', ht, -⟩; rw [h] at ht; cases ht; exact ⟨rfl, rfl⟩
    · rename_i hk
      constructor
      · intro h; exact absurd h not_yields_error
      · rintro ⟨-, t', ht, hk'⟩; rw [h] at ht; cases ht; exact absurd hk' hk

theorem yields_bracketed_iff : Yields (do
    let inner ← expression stop 0 ts
    let bracketed ← closed stop inner
    return bracketed.past t) f rest ↔ ∃ c, Yields (expression stop 0 ts) f (c :: rest) ∧ c.kind = .closeBracket := by
  rw [yields_bind]
  constructor
  · rintro ⟨r, hr, h⟩
    obtain ⟨_, hc, rfl⟩ := (yields_map_iff id (by intro; rfl) (by intro; rfl)).1 h
    obtain ⟨rfl, c, hrest, hk⟩ := yields_closed_iff.1 hc
    exact ⟨c, ⟨r, hr, rfl, hrest⟩, hk⟩
  · rintro ⟨c, ⟨r, hr, rfl, hrest⟩, hk⟩
    exact ⟨r, hr, (yields_map_iff id (by intro; rfl) (by intro; rfl)).2
      ⟨_, yields_closed_iff.2 ⟨rfl, c, hrest, hk⟩, rfl⟩⟩

theorem yields_symbol_iff (ht : t.kind = .symbol) :
    Yields (operand stop (t :: ts)) f rest ↔ leaf (.keyword t.text) = f ∧ ts = rest := by
  rw [operand.eq_def]
  simp only [ht]
  exact yields_pure

theorem yields_quote_iff (ht : t.kind = .quote) :
    Yields (operand stop (t :: ts)) f rest ↔ ∃ s, Yields (quoted stop ts) s rest ∧ leaf (.keyword s) = f := by
  rw [operand.eq_def]
  simp only [ht]
  exact yields_map_iff (fun s => leaf (.keyword s)) (by intro; rfl) (by intro; rfl)

theorem yields_qualifier_iff (ht : t.kind = .qualifier) :
    Yields (operand stop (t :: ts)) f rest ↔ Yields (qualified stop t ts) f rest := by
  rw [operand.eq_def]
  simp only [ht]
  refine (yields_map_iff id (by intro; rfl) (by intro; rfl)).trans ?_
  simp

theorem yields_not_iff (ht : t.kind = .not) :
    Yields (operand stop (t :: ts)) f rest ↔ ∃ g, Yields (expression stop 3 ts) g rest ∧ not g = f := by
  rw [operand.eq_def]
  simp only [ht]
  exact yields_map_iff not (by intro; rfl) (by intro; rfl)

theorem yields_brackets_iff (ht : t.kind = .openBracket) : Yields (operand stop (t :: ts)) f rest ↔
    ∃ c, Yields (expression stop 0 ts) f (c :: rest) ∧ c.kind = .closeBracket := by
  rw [operand.eq_def]
  simp only [ht]
  exact yields_bracketed_iff

end Steps

/-! ## One task after another -/

/-- The parser does the task. -/
def Runs (stop : Nat) : Task → List Token → Filter → List Token → Prop
  | .operand, ts, f, rest => Yields (operand stop ts) f rest
  | .expression level, ts, f, rest => Yields (expression stop level ts) f rest
  | .chain level left, ts, f, rest => Leaves (chain stop level left ts) f rest

/-- The parser fails at the task. -/
def Fails (stop : Nat) : Task → List Token → SyntaxError → Prop
  | .operand, ts, e => operand stop ts = .error e
  | .expression level, ts, e => expression stop level ts = .error e
  | .chain level left, ts, e => chain stop level left ts = .error e

/-- A measure that falls from a task to those it is done by. -/
def Task.size : Task → List Token → Nat
  | .operand, ts => 3 * ts.length
  | .expression _, ts => 3 * ts.length + 1
  | .chain .., ts => 3 * ts.length + 2

/-- To do the task with the tokens `ts` is to do the task `first` with `us`, to join its filter to
what stands before it, and to go on from there with the chain of the level. -/
structure Splits (stop : Nat) (task : Task) (ts : List Token) (first : Task) (us : List Token) (level : Nat)
    (join : Filter → Filter) : Prop where
  suffix : us <:+ ts
  smaller : first.size us < task.size ts
  shorter {f : Filter} {vs : List Token} : Runs stop first us f vs → vs.length < us.length
  runs_iff {f : Filter} {rest : List Token} : Runs stop task ts f rest ↔
    ∃ g vs, Runs stop first us g vs ∧ Runs stop (.chain level (join g)) vs f rest
  fails_iff {e : SyntaxError} : Fails stop task ts e ↔ Fails stop first us e ∨
    ∃ g vs, Runs stop first us g vs ∧ Fails stop (.chain level (join g)) vs e
  reads {tail vs rest : List Shape} {f g : Filter} : Reads first (us.map shape ++ tail) f vs →
    Reads (.chain level (join f)) vs g rest → Reads task (ts.map shape ++ tail) g rest

section Splits

variable {stop level : Nat} {t : Token} {ts rest : List Token} {f left : Filter}

section Linked

variable (join : Filter → Filter) {x : Except SyntaxError (Reading Filter ts)}

theorem leaves_linked_iff {whole : List Token}
    {g : (r : Reading Filter ts) → Remainder Filter r.rest → Remainder Filter whole}
    (hv : ∀ r w, (g r w).value = w.value) (hr : ∀ r w, (g r w).rest = w.rest) :
    Leaves (x >>= fun r => chain stop level (join r.value) r.rest >>= fun w => pure (g r w)) f rest ↔
      ∃ h us, Yields x h us ∧ Leaves (chain stop level (join h) us) f rest := by
  rw [leaves_bind]
  constructor
  · rintro ⟨r, hx, h⟩
    exact ⟨r.value, r.rest, ⟨r, hx, rfl, rfl⟩, (leaves_remainder_iff (hv r) (hr r)).1 h⟩
  · rintro ⟨_, _, ⟨r, hx, rfl, rfl⟩, h⟩
    exact ⟨r, hx, (leaves_remainder_iff (hv r) (hr r)).2 h⟩

theorem linked_eq_error_iff {γ : Type} {g : (r : Reading Filter ts) → Remainder Filter r.rest → γ} {e : SyntaxError} :
    (x >>= fun r => chain stop level (join r.value) r.rest >>= fun w => pure (g r w)) = .error e ↔
      x = .error e ∨ ∃ h us, Yields x h us ∧ chain stop level (join h) us = .error e := by
  rw [bind_eq_error_iff]
  refine or_congr_right ⟨?_, ?_⟩
  · rintro ⟨r, hx, h⟩
    exact ⟨r.value, r.rest, ⟨r, hx, rfl, rfl⟩, map_eq_error_iff.1 h⟩
  · rintro ⟨_, _, ⟨r, hx, rfl, rfl⟩, h⟩
    exact ⟨r, hx, map_eq_error_iff.2 h⟩

end Linked

theorem splits_expression : Splits stop (.expression level) ts .operand ts level fun f => f where
  suffix := List.suffix_rfl
  smaller := Nat.lt_succ_self _
  shorter h := h.length_lt
  runs_iff {f rest} := by
    simp only [Runs]
    rw [expression, yields_bind]
    constructor
    · rintro ⟨r, hr, h⟩
      exact ⟨r.value, r.rest, ⟨r, hr, rfl, rfl⟩, (yields_remainder_iff (by intro; rfl) (by intro; rfl)).1 h⟩
    · rintro ⟨_, _, ⟨r, hr, rfl, rfl⟩, h⟩
      exact ⟨r, hr, (yields_remainder_iff (by intro; rfl) (by intro; rfl)).2 h⟩
  fails_iff {e} := by
    simp only [Fails]
    rw [expression]
    exact linked_eq_error_iff fun f => f
  reads := .expression

theorem splits_and (ht : t.kind = .and) (hl : level < 2) :
    Splits stop (.chain level left) (t :: ts) (.expression 2) ts level (and left) where
  suffix := List.suffix_cons ..
  smaller := by simp only [Task.size, List.length_cons]; omega
  shorter h := h.length_lt
  runs_iff {f rest} := by
    simp only [Runs]
    rw [chain.eq_def]
    simp only [ht]
    rw [if_pos (show level < Token.Kind.and.power from hl)]
    exact leaves_linked_iff _ (by intros; rfl) (by intros; rfl)
  fails_iff {e} := by
    simp only [Fails]
    rw [chain.eq_def]
    simp only [ht]
    rw [if_pos (show level < Token.Kind.and.power from hl)]
    exact linked_eq_error_iff _
  reads := .and ht hl

theorem splits_or (ht : t.kind = .or) (hl : level < 1) :
    Splits stop (.chain level left) (t :: ts) (.expression 1) ts level (or left) where
  suffix := List.suffix_cons ..
  smaller := by simp only [Task.size, List.length_cons]; omega
  shorter h := h.length_lt
  runs_iff {f rest} := by
    simp only [Runs]
    rw [chain.eq_def]
    simp only [ht]
    rw [if_pos (show level < Token.Kind.or.power from hl)]
    exact leaves_linked_iff _ (by intros; rfl) (by intros; rfl)
  fails_iff {e} := by
    simp only [Fails]
    rw [chain.eq_def]
    simp only [ht]
    rw [if_pos (show level < Token.Kind.or.power from hl)]
    exact linked_eq_error_iff _
  reads := .or ht hl

theorem splits_juxtaposed (hand : t.kind ≠ .and) (hor : t.kind ≠ .or) (hl : level < t.kind.power) :
    Splits stop (.chain level left) (t :: ts) (.expression 2) (t :: ts) level (and left) where
  suffix := List.suffix_rfl
  smaller := Nat.lt_succ_self _
  shorter h := h.length_lt
  runs_iff {f rest} := by
    simp only [Runs]
    rw [chain.eq_def]
    simp only [if_pos hl]
    exact leaves_linked_iff _ (by intros; rfl) (by intros; rfl)
  fails_iff {e} := by
    simp only [Fails]
    rw [chain.eq_def]
    simp only [if_pos hl]
    exact linked_eq_error_iff _
  reads := .juxtaposed hand hor hl

theorem runs_stop_iff (hts : BindsWithin level (ts.map shape)) :
    Runs stop (.chain level left) ts f rest ↔ left = f ∧ ts = rest := by
  rw [Runs, chain.eq_def]
  split
  · exact leaves_pure
  · rename_i t ts
    have ht : t.kind.power ≤ level := bindsWithin_cons.1 hts
    rw [if_neg (Nat.not_lt.2 ht)]
    exact leaves_pure

theorem not_fails_stop (hts : BindsWithin level (ts.map shape)) {e : SyntaxError} :
    ¬ Fails stop (.chain level left) ts e := by
  rw [Fails, chain.eq_def]
  split
  · exact pure_ne_error
  · rename_i t ts
    have ht : t.kind.power ≤ level := bindsWithin_cons.1 hts
    rw [if_neg (Nat.not_lt.2 ht)]
    exact pure_ne_error

/-- Every task but an operand is done in two steps, or it is a chain that stops at once. -/
theorem exists_splits (stop : Nat) (task : Task) (ts : List Token) : task = .operand ∨
    (∃ level left, task = .chain level left ∧ BindsWithin level (ts.map shape)) ∨
      ∃ first us level join, Splits stop task ts first us level join := by
  cases task with
  | operand => exact .inl rfl
  | expression level => exact .inr (.inr ⟨_, _, _, _, splits_expression⟩)
  | chain level left =>
    cases ts with
    | nil => exact .inr (.inl ⟨level, left, rfl, bindsWithin_nil level⟩)
    | cons t ts =>
      by_cases hl : level < t.kind.power
      · refine .inr (.inr ?_)
        by_cases hand : t.kind = .and
        · exact ⟨_, _, _, _, splits_and hand (by rw [hand] at hl; exact hl)⟩
        by_cases hor : t.kind = .or
        · exact ⟨_, _, _, _, splits_or hor (by rw [hor] at hl; exact hl)⟩
        · exact ⟨_, _, _, _, splits_juxtaposed hand hor hl⟩
      · exact .inr (.inl ⟨level, left, rfl, bindsWithin_cons.2 (Nat.not_lt.1 hl)⟩)

theorem Splits.size_lt {task first : Task} {us vs : List Token} {join : Filter → Filter}
    (h : Splits stop task ts first us level join)
    (hr : Runs stop first us f vs) : (Task.chain level (join f)).size vs < task.size ts := by
  have hlt := h.shorter hr
  have hle := h.suffix.length_le
  have hsize : 3 * ts.length ≤ task.size ts := by
    cases task <;> simp only [Task.size] <;> omega
  show 3 * vs.length + 2 < task.size ts
  omega

/-- What holds of a task if it holds of those it is done by holds of all tasks. -/
theorem Task.induction (stop : Nat) {motive : Task → List Token → Prop}
    (operand : ∀ ts, (∀ level us, us.length < ts.length → motive (.expression level) us) → motive .operand ts)
    (done : ∀ level left ts, BindsWithin level (ts.map shape) → motive (.chain level left) ts)
    (splits : ∀ task ts first us level join, Splits stop task ts first us level join → motive first us →
      (∀ f vs, Runs stop first us f vs → motive (.chain level (join f)) vs) → motive task ts)
    (task : Task) (ts : List Token) : motive task ts := by
  induction hn : task.size ts using Nat.strong_induction_on generalizing task ts with
  | _ n ih =>
    subst hn
    obtain rfl | ⟨level, left, rfl, hb⟩ | ⟨first, us, level, join, h⟩ := exists_splits stop task ts
    · refine operand ts fun level us hus => ih _ ?_ _ _ rfl
      simp only [Task.size]
      omega
    · exact done level left ts hb
    · exact splits task ts first us level join h (ih _ h.smaller _ _ rfl) fun f vs hr => ih _ (h.size_lt hr) _ _ rfl

end Splits

/-! ## What the parser reads -/

/-- A text that an operand may begin, or that a connective goes on, is settled. -/
theorem settled_of_power {s : Shape} {ss : List Shape} (h : 0 < s.kind.power) : Settled (s :: ss) := by
  refine avoids_cons.2 fun hm => ?_
  simp only [List.mem_cons, List.not_mem_nil, or_false] at hm
  rcases hm with hm | hm | hm <;> rw [hm] at h <;> exact absurd h (by decide)

theorem settled_of_close {s : Shape} {ss : List Shape} (h : s.kind = .closeBracket) : Settled (s :: ss) :=
  avoids_cons.2 (by simp [h])

theorem bindsWithin_close {c : Shape} (hc : c.kind = .closeBracket) (level : Nat) (rest : List Shape) :
    BindsWithin level (c :: rest) :=
  bindsWithin_cons.2 (by rw [hc]; exact Nat.zero_le level)

theorem settled_of_runs {stop level : Nat} {ts rest : List Token} {f left : Filter}
    (h : Runs stop (.chain level left) ts f rest) (hs : Settled (rest.map shape)) : Settled (ts.map shape) := by
  cases ts with
  | nil => exact avoids_nil _
  | cons t ts =>
    by_cases hl : level < t.kind.power
    · exact settled_of_power (Nat.zero_lt_of_lt hl)
    · obtain ⟨-, rfl⟩ := (runs_stop_iff (bindsWithin_cons.2 (Nat.not_lt.1 hl))).1 h
      exact hs

/-- What an operand can be. -/
theorem operand_cases {stop : Nat} {ts rest : List Token} {f : Filter} (h : Runs stop .operand ts f rest) :
    ∃ t us, ts = t :: us ∧
      (t.kind = .symbol ∧ leaf (.keyword t.text) = f ∧ us = rest ∨
      t.kind = .quote ∧ (∃ s, Yields (quoted stop us) s rest ∧ leaf (.keyword s) = f) ∨
      t.kind = .qualifier ∧ Yields (qualified stop t us) f rest ∨
      t.kind = .not ∧ (∃ g, Runs stop (.expression 3) us g rest ∧ not g = f) ∨
      t.kind = .openBracket ∧ ∃ c, Runs stop (.expression 0) us f (c :: rest) ∧ c.kind = .closeBracket) := by
  cases ts with
  | nil =>
    rw [Runs, operand.eq_def] at h
    exact absurd h not_yields_error
  | cons t us =>
    refine ⟨t, us, rfl, ?_⟩
    generalize hk : t.kind = kind
    cases kind with
    | symbol => exact .inl ⟨rfl, (yields_symbol_iff hk).1 h⟩
    | quote => exact .inr (.inl ⟨rfl, (yields_quote_iff hk).1 h⟩)
    | qualifier => exact .inr (.inr (.inl ⟨rfl, (yields_qualifier_iff hk).1 h⟩))
    | not => exact .inr (.inr (.inr (.inl ⟨rfl, (yields_not_iff hk).1 h⟩)))
    | openBracket => exact .inr (.inr (.inr (.inr ⟨rfl, (yields_brackets_iff hk).1 h⟩)))
    | _ =>
      rw [Runs, operand.eq_def] at h
      simp only [hk] at h
      exact absurd h not_yields_error

/-- What the parser leaves of the tokens is their end. -/
theorem isSuffix_of_runs {stop : Nat} (task : Task) (ts : List Token) {f : Filter} {rest : List Token}
    (h : Runs stop task ts f rest) : rest <:+ ts := by
  induction task, ts using Task.induction stop generalizing f rest with
  | operand ts ih =>
    obtain ⟨t, us, rfl, ⟨-, -, rfl⟩ | ⟨hk, s, hs, -⟩ | ⟨-, hq⟩ | ⟨-, g, hg, -⟩ | ⟨-, c, hc, -⟩⟩ := operand_cases h
    · exact List.suffix_cons ..
    · obtain ⟨vs, hvs, -⟩ := (yields_quoted_iff hk).1 hs
      exact ⟨vs, hvs.symm⟩
    · obtain ⟨vs, rfl, -⟩ := isChoice_of_yields hq
      exact (List.suffix_append ..).trans (List.suffix_cons ..)
    · exact (ih 3 us (Nat.lt_succ_self _) hg).trans (List.suffix_cons ..)
    · exact ((List.suffix_cons ..).trans (ih 0 us (Nat.lt_succ_self _) hc)).trans (List.suffix_cons ..)
  | done level left ts hb =>
    obtain ⟨-, rfl⟩ := (runs_stop_iff hb).1 h
    exact List.suffix_rfl
  | splits task ts first us level join hsplits ih1 ih2 =>
    obtain ⟨g, vs, hg, hchain⟩ := hsplits.runs_iff.1 h
    exact ((ih2 g vs hg hchain).trans (ih1 hg)).trans hsplits.suffix

/-- What the parser reads up to a settled text, it reads by the rules. -/
theorem reads_of_runs {stop : Nat} (task : Task) (ts : List Token) {f : Filter} {rest : List Token}
    (h : Runs stop task ts f rest) (hs : Settled (rest.map shape)) :
    Reads task (ts.map shape) f (rest.map shape) := by
  induction task, ts using Task.induction stop generalizing f rest with
  | operand ts ih =>
    obtain ⟨t, us, rfl, ⟨hk, rfl, rfl⟩ | ⟨hk, s, hq, rfl⟩ | ⟨hk, hq⟩ | ⟨hk, g, hg, rfl⟩ | ⟨hk, c, hc, hclose⟩⟩ :=
      operand_cases h
    · exact .symbol hk
    · obtain ⟨vs, hvs, hquoted⟩ := (yields_quoted_iff hk).1 hq
      rw [hvs, List.map_append]
      exact .quoted hquoted
    · obtain ⟨vs, rfl, hchoice⟩ := isChoice_of_yields hq
      rw [List.map_cons, List.map_append]
      exact .qualifier hk hchoice hs
    · exact .not hk (ih 3 us (Nat.lt_succ_self _) hg hs)
    · exact .brackets hk (ih 0 us (Nat.lt_succ_self _) hc (settled_of_close hclose)) hclose
  | done level left ts hb =>
    obtain ⟨rfl, rfl⟩ := (runs_stop_iff hb).1 h
    exact .stop hb
  | splits task ts first us level join hsplits ih1 ih2 =>
    obtain ⟨g, vs, hg, hchain⟩ := hsplits.runs_iff.1 h
    have hfirst := ih1 hg (settled_of_runs hchain hs)
    rw [← List.append_nil (us.map shape)] at hfirst
    rw [← List.append_nil (ts.map shape)]
    exact hsplits.reads hfirst (ih2 g vs hg hchain hs)

/-- What the rules read, the parser reads. -/
theorem runs_of_reads {stop : Nat} {task : Task} {ss rest : List Shape} {f : Filter} (h : Reads task ss f rest)
    {ts : List Token} (hts : ts.map shape = ss) : ∃ us, Runs stop task ts f us ∧ us.map shape = rest := by
  induction h generalizing ts with
  | symbol hk =>
    obtain ⟨t, us, rfl, rfl, rfl⟩ := List.map_eq_cons_iff.1 hts
    exact ⟨us, (yields_symbol_iff hk).2 ⟨rfl, rfl⟩, rfl⟩
  | quoted hq =>
    obtain ⟨us, vs, rfl, rfl, rfl⟩ := List.map_eq_append_iff.1 hts
    obtain ⟨t, ws, q, rfl, ht, -⟩ := isQuoted_map_iff.1 hq
    exact ⟨vs, (yields_quote_iff ht).2 ⟨_, (yields_quoted_iff ht).2 ⟨_, rfl, hq⟩, rfl⟩, rfl⟩
  | qualifier hk hc hs =>
    obtain ⟨t, us, rfl, rfl, hus⟩ := List.map_eq_cons_iff.1 hts
    obtain ⟨us, vs, rfl, rfl, rfl⟩ := List.map_eq_append_iff.1 hus
    exact ⟨vs, (yields_qualifier_iff hk).2 (yields_of_isChoice hc hs), rfl⟩
  | not hk _ ih =>
    obtain ⟨t, us, rfl, rfl, rfl⟩ := List.map_eq_cons_iff.1 hts
    obtain ⟨vs, hvs, rfl⟩ := ih rfl
    exact ⟨vs, (yields_not_iff hk).2 ⟨_, hvs, rfl⟩, rfl⟩
  | brackets hk _ hc ih =>
    obtain ⟨t, us, rfl, rfl, rfl⟩ := List.map_eq_cons_iff.1 hts
    obtain ⟨vs, hvs, hrest⟩ := ih rfl
    obtain ⟨c, vs, rfl, rfl, rfl⟩ := List.map_eq_cons_iff.1 hrest
    exact ⟨vs, (yields_brackets_iff hk).2 ⟨c, hvs, hc⟩, rfl⟩
  | expression _ _ ih1 ih2 =>
    obtain ⟨us, hus, rfl⟩ := ih1 hts
    obtain ⟨vs, hvs, rfl⟩ := ih2 rfl
    exact ⟨vs, splits_expression.runs_iff.2 ⟨_, us, hus, hvs⟩, rfl⟩
  | stop hb =>
    subst hts
    exact ⟨ts, (runs_stop_iff hb).2 ⟨rfl, rfl⟩, rfl⟩
  | and hk hl _ _ ih1 ih2 =>
    obtain ⟨t, us, rfl, rfl, rfl⟩ := List.map_eq_cons_iff.1 hts
    obtain ⟨vs, hvs, rfl⟩ := ih1 rfl
    obtain ⟨ws, hws, rfl⟩ := ih2 rfl
    exact ⟨ws, (splits_and hk hl).runs_iff.2 ⟨_, vs, hvs, hws⟩, rfl⟩
  | or hk hl _ _ ih1 ih2 =>
    obtain ⟨t, us, rfl, rfl, rfl⟩ := List.map_eq_cons_iff.1 hts
    obtain ⟨vs, hvs, rfl⟩ := ih1 rfl
    obtain ⟨ws, hws, rfl⟩ := ih2 rfl
    exact ⟨ws, (splits_or hk hl).runs_iff.2 ⟨_, vs, hvs, hws⟩, rfl⟩
  | juxtaposed hand hor hl _ _ ih1 ih2 =>
    obtain ⟨t, us, rfl, rfl, rfl⟩ := List.map_eq_cons_iff.1 hts
    obtain ⟨vs, hvs, rfl⟩ := ih1 (show (t :: us).map shape = _ from rfl)
    obtain ⟨ws, hws, rfl⟩ := ih2 rfl
    exact ⟨ws, (splits_juxtaposed hand hor hl).runs_iff.2 ⟨_, vs, hvs, hws⟩, rfl⟩

theorem Runs.unique {stop : Nat} {task : Task} {ts rest rest' : List Token} {f f' : Filter}
    (h : Runs stop task ts f rest) (h' : Runs stop task ts f' rest') : f = f' ∧ rest = rest' := by
  cases task with
  | operand => exact Yields.unique h h'
  | expression level => exact Yields.unique h h'
  | chain level left => exact Leaves.unique h h'

/-- The rules read the tokens in one way. -/
theorem Reads.unique {task : Task} {ss rest rest' : List Shape} {f f' : Filter} (h : Reads task ss f rest)
    (h' : Reads task ss f' rest') : f = f' ∧ rest = rest' := by
  -- tokens of these shapes, which the parser reads in one way only
  obtain ⟨ts, rfl⟩ : ∃ ts : List Token, ts.map shape = ss :=
    ⟨ss.map fun s => ⟨s.kind, s.text, 0⟩, by simp [Function.comp_def, shape]⟩
  obtain ⟨us, hus, rfl⟩ : ∃ us, Runs 0 task ts f us ∧ us.map shape = rest := runs_of_reads h rfl
  obtain ⟨us', hus', rfl⟩ := runs_of_reads h' rfl
  obtain ⟨rfl, rfl⟩ := hus.unique hus'
  exact ⟨rfl, rfl⟩

/-! ## Texts that go on -/

theorem Reads.isSuffix {task : Task} {ss rest : List Shape} {f : Filter} (h : Reads task ss f rest) : rest <:+ ss := by
  induction h with
  | symbol => exact List.suffix_cons ..
  | quoted => exact List.suffix_append ..
  | qualifier => exact (List.suffix_append ..).trans (List.suffix_cons ..)
  | not _ _ ih => exact ih.trans (List.suffix_cons ..)
  | brackets _ _ _ ih => exact ((List.suffix_cons ..).trans ih).trans (List.suffix_cons ..)
  | expression _ _ ih1 ih2 => exact ih2.trans ih1
  | stop => exact List.suffix_rfl
  | and _ _ _ _ ih1 ih2 => exact (ih2.trans ih1).trans (List.suffix_cons ..)
  | or _ _ _ _ ih1 ih2 => exact (ih2.trans ih1).trans (List.suffix_cons ..)
  | juxtaposed _ _ _ _ _ ih1 ih2 => exact ih2.trans ih1

theorem Settled.append {rest tail : List Shape} (h : Settled rest) (ht : rest ≠ [] ∨ Settled tail) :
    Settled (rest ++ tail) := by
  cases rest with
  | nil => exact ht.resolve_left fun hne => hne rfl
  | cons s rest => exact avoids_cons.2 (avoids_cons.1 h)

theorem BindsWithin.append {level : Nat} {rest tail : List Shape} (h : BindsWithin level rest)
    (ht : rest ≠ [] ∨ BindsWithin level tail) : BindsWithin level (rest ++ tail) := by
  cases rest with
  | nil => exact ht.resolve_left fun hne => hne rfl
  | cons s rest => exact bindsWithin_cons.2 (bindsWithin_cons.1 h)

theorem BindsWithin.mono {level level' : Nat} {ss : List Shape} (h : BindsWithin level ss) (hl : level ≤ level') :
    BindsWithin level' ss := fun s hs => (h s hs).trans hl

/-- What is read is read in the same way when the text goes on behind a token that is left, or goes
on with something that no filter takes in. -/
theorem Reads.append {task : Task} {ss rest : List Shape} {f : Filter} (h : Reads task ss f rest)
    {tail : List Shape} (ht : rest ≠ [] ∨ Settled tail ∧ BindsWithin 0 tail) :
    Reads task (ss ++ tail) f (rest ++ tail) := by
  -- a step that leaves nothing is one before an end that leaves nothing
  have hearlier {us rest : List Shape} (hs : rest <:+ us) (ht : rest ≠ [] ∨ Settled tail ∧ BindsWithin 0 tail) :
      us ≠ [] ∨ Settled tail ∧ BindsWithin 0 tail :=
    ht.imp_left fun hne hnil => hne (List.suffix_nil.1 (hnil ▸ hs))
  induction h with
  | symbol hk => exact .symbol hk
  | quoted hq => rw [List.append_assoc]; exact .quoted hq
  | qualifier hk hq hs =>
    rw [List.cons_append, List.append_assoc]
    exact .qualifier hk hq (hs.append (ht.imp_right And.left))
  | not hk _ ih => exact .not hk (ih ht)
  | brackets ho _ hclose ih => exact .brackets ho (ih (.inl (List.cons_ne_nil _ _))) hclose
  | expression _ h2 ih1 ih2 => exact .expression (ih1 (hearlier h2.isSuffix ht)) (ih2 ht)
  | stop hb => exact .stop (hb.append (ht.imp_right fun h => h.2.mono (Nat.zero_le _)))
  | and hk hl _ h2 ih1 ih2 => exact .and hk hl (ih1 (hearlier h2.isSuffix ht)) (ih2 ht)
  | or hk hl _ h2 ih1 ih2 => exact .or hk hl (ih1 (hearlier h2.isSuffix ht)) (ih2 ht)
  | juxtaposed hand hor hl _ h2 ih1 ih2 => exact .juxtaposed hand hor hl (ih1 (hearlier h2.isSuffix ht)) (ih2 ht)

/-- What is read where the text ends is read in the same way where a bracket closes. -/
theorem Reads.append_close {task : Task} {ss rest : List Shape} {f : Filter} (h : Reads task ss f rest) {c : Shape}
    (hc : c.kind = .closeBracket) (tail : List Shape) :
    Reads task (ss ++ c :: tail) f (rest ++ c :: tail) :=
  h.append (.inr ⟨settled_of_close hc, bindsWithin_close hc 0 tail⟩)

/-! ## Whole texts -/

/-- The filter of all the tokens; none at all stand for the empty one. -/
inductive ReadsWhole : List Shape → Filter → Prop
  | empty : ReadsWhole [] empty
  | expression {ss : List Shape} {f : Filter} : Reads (.expression 0) ss f [] → ReadsWhole ss f

theorem Reads.ne_nil {level : Nat} {ss rest : List Shape} {f : Filter} (h : Reads (.expression level) ss f rest) :
    ss ≠ [] := by
  rintro rfl
  obtain ⟨us, hus, -⟩ : ∃ us, Runs 0 (.expression level) [] f us ∧ us.map shape = rest := runs_of_reads h rfl
  exact Nat.not_lt_zero _ (Yields.length_lt hus)

theorem trim_isEmpty_iff {cs : List Char} :
    (Text.trim cs).isEmpty = true ↔ ∀ c ∈ cs, Text.isBlank c = true := by
  rw [List.isEmpty_iff, Text.trim, Text.trimEnd, Text.trimStart]
  constructor
  · intro h c hc
    rw [List.reverse_eq_nil_iff, List.dropWhile_eq_nil_iff] at h
    by_contra hb
    rw [← List.takeWhile_append_dropWhile (p := Text.isBlank) (l := cs), List.mem_append] at hc
    rcases hc with hc | hc
    · exact hb (List.mem_takeWhile_imp hc)
    · exact hb (h c (List.mem_reverse.2 hc))
  · intro h
    rw [List.dropWhile_eq_nil_iff.2 h]
    rfl

/-- The parser accepts the texts whose tokens the rules read. -/
theorem parse_eq_ok_iff {s : String} {f : Filter} :
    parse s = .ok f ↔ ∃ ss, Token.Lexes s.toList ss ∧ ReadsWhole ss f := by
  unfold parse
  split
  · rename_i hblank
    have hl : Token.Lexes s.toList [] := .done (trim_isEmpty_iff.1 hblank)
    constructor
    · rintro h
      cases h
      exact ⟨[], hl, .empty⟩
    · rintro ⟨ss, hss, hr⟩
      obtain rfl := hss.unique hl
      cases hr with
      | empty => rfl
      | expression h => exact absurd rfl h.ne_nil
  · rename_i hblank
    rw [bind_eq_ok_iff]
    constructor
    · rintro ⟨l, hl, h⟩
      obtain ⟨⟨g, rest, hlt⟩, hg, h⟩ := bind_eq_ok_iff.1 h
      dsimp only at h
      split at h
      · cases h
        exact ⟨_, Token.lexes_of_lex hl,
          .expression (reads_of_runs (.expression 0) l.tokens ⟨_, hg, rfl, rfl⟩ (avoids_nil _))⟩
      · cases h
    · rintro ⟨ss, hss, hr⟩
      cases hr with
      | empty => exact absurd (trim_isEmpty_iff.2 (Token.lexes_nil_iff.1 hss)) hblank
      | expression h =>
        obtain ⟨l, hl, hts⟩ := Token.exists_lex_of_lexes hss
        obtain ⟨us, ⟨⟨g, rest, hlt⟩, hg, rfl, rfl⟩, hus⟩ :
          ∃ us, Runs l.stop (.expression 0) l.tokens f us ∧ us.map shape = [] := runs_of_reads h hts
        obtain rfl : rest = [] := List.map_eq_nil_iff.1 hus
        refine ⟨l, hl, bind_eq_ok_iff.2 ⟨_, hg, rfl⟩⟩

/-- A text that is not blank is read as an expression. -/
theorem exists_reads_of_parse {text : String} {f : Filter} (ht : (Text.trim text.toList).isEmpty = false)
    (h : parse text = .ok f) : ∃ ss, Token.Lexes text.toList ss ∧ Reads (.expression 0) ss f [] := by
  obtain ⟨ss, hss, hw⟩ := parse_eq_ok_iff.1 h
  cases hw with
  | empty =>
    rw [trim_isEmpty_iff.2 (Token.lexes_nil_iff.1 hss)] at ht
    cases ht
  | expression hr => exact ⟨ss, hss, hr⟩

end IssueQuery.Filter
