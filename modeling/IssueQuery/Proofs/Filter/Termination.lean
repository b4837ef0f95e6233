/-
The parser comes back from every call, wherever on the lexemes it stands. The cursor never passes the end of
the text, and the tokens that it moves over are taken once each and in their order. On the tokens of a text the
walk gives what the parser gives.
-/
import IssueQuery.Proofs.Filter.Passage

namespace IssueQuery.Filter

open Token (Shape shape)

namespace Walk

/-! ## Expressions -/

section Expressions

variable {l : Token.Lexed} {G : Prop} {c : Cursor} {ts us : List Token} {level : Nat} {left : Filter}

/-- The routine that does the task. -/
def routine (l : Token.Lexed) : Task → Routine Filter
  | .operand => do operand l (← advance l)
  | .expression level => expression l level
  | .chain level left => chain l level left

/-- What bounds the tokens that the task leaves: all but a chain take a token at least. -/
def bound : Task → List Token → Nat
  | .chain .., ts => ts.length + 1
  | _, ts => ts.length

/-- The task is done wherever its tokens lie ahead. -/
def Does (l : Token.Lexed) (G : Prop) (task : Task) (ts : List Token) : Prop :=
  ∀ c : Cursor, l.tokens.drop c.position = ts →
    Returns l G (routine l task) c (bound task ts) (Runs l.stop task ts) (Fails l.stop task ts)

theorem returns_operand {t : Token} (hG : G → l.IsGenuine)
    (hname : G → t.kind = .qualifier → TakesContent (shape t).name)
    (hinner : ∀ level, Does l G (.expression level) ts) (hc : l.tokens.drop c.position = ts) :
    Returns l G (operand l (.token t)) c (ts.length + 1) (Runs l.stop .operand (t :: ts))
      (Fails l.stop .operand (t :: ts)) := by
  rw [operand]
  generalize hk : t.kind = kind
  cases kind with
  | openBracket =>
    refine (hinner 0 c hc).bind (fun _ e he => (fails_brackets_iff hk).2 (.inl he)) fun f us rest hus hlt hf => ?_
    have hrest := drop_after hus
    have hunclosed (hclose : ∀ b ∈ rest.head?, b.kind ≠ .closeBracket) (g : G) :
        Fails l.stop .operand (t :: ts) (.misplaced (.unclosedBracket (.ofTokens l.stop rest))) :=
      (fails_brackets_iff hk).2 (.inr ⟨f, rest, hf g, hclose, rfl⟩)
    cases rest with
    | nil => exact returns_advance_end hrest (returns_misplaced (hunclosed (by simp)))
    | cons b rest =>
      refine returns_advance hrest ?_
      simp only [Lexeme.kind?, Option.some.injEq]
      by_cases hb : b.kind = .closeBracket
      · rw [if_pos hb]
        refine returns_pure (drop_after_cons hrest) (by simp [bound] at hlt; omega) fun g => ?_
        exact (yields_brackets_iff hk).2 ⟨b, hf g, hb⟩
      · rw [if_neg hb]
        exact returns_misplaced (hunclosed (by simpa using hb))
  | not =>
    refine (hinner 3 c hc).bind (fun _ e he => (fails_not_iff hk).2 he) fun f us rest hus hlt hf => ?_
    refine returns_pure (drop_after hus) (hlt.trans (Nat.lt_succ_self _)) fun g => ?_
    exact (yields_not_iff hk).2 ⟨f, hf g, rfl⟩
  | qualifier =>
    refine (returns_qualified hG (fun g => hname g hk) hc).imp (Nat.le_succ _) (fun _ f rest h => ?_) fun _ e he => ?_
    · exact (yields_qualifier_iff hk).2 h
    · exact (fails_qualifier_iff hk).2 he
  | quote =>
    refine (returns_quoted hG hc).bind (fun _ e he => (fails_quote_iff hk).2 he) fun s us rest hus hlt hs => ?_
    refine returns_pure (drop_after hus) (hlt.trans (Nat.lt_succ_self _)) fun g => ?_
    exact (yields_quote_iff hk).2 ⟨s, hs g, rfl⟩
  | symbol => exact returns_pure hc (Nat.lt_succ_self _) fun _ => (yields_symbol_iff hk).2 ⟨rfl, rfl⟩
  | _ =>
    refine returns_misplaced fun _ => ?_
    rw [Fails, Filter.operand.eq_def]
    simp only [hk]

/-- The first of the two steps of a task, the other being a chain, gives this value and leaves these tokens. -/
def StepRuns (stop : Nat) (task : Task) (ts : List Token) (level : Nat) (g : Filter) (rest : List Token) : Prop :=
  ∃ first us join f, Splits stop task ts first us level join ∧ Runs stop first us f rest ∧ g = join f

/-- The first of the two steps of a task fails. -/
def StepFails (stop : Nat) (task : Task) (ts : List Token) (level : Nat) (e : SyntaxError) : Prop :=
  ∃ first us join, Splits stop task ts first us level join ∧ Fails stop first us e

/-- A task of two steps is done by a routine in two steps. -/
theorem returns_bind_chain {task : Task} {m : Routine Filter} {k n : Nat}
    (hm : Returns l G m c k (StepRuns l.stop task ts level) (StepFails l.stop task ts level)) (hk : k ≤ n)
    (hchain : ∀ f vs, vs.length < k → Does l G (.chain level f) vs) :
    Returns l G (m >>= chain l level) c n (Runs l.stop task ts) (Fails l.stop task ts) := by
  refine hm.bind (fun _ e he => ?_) fun g us rest hus hlt hg => ?_
  · obtain ⟨first, us, join, hsplits, he⟩ := he
    exact hsplits.fails_iff.2 (.inl he)
  · refine (hchain g rest hlt _ (drop_after hus)).imp (hlt.trans_le hk) (fun hG h ws hws => ?_) fun hG e he => ?_
    · obtain ⟨first, us, join, f, hsplits, hf, rfl⟩ := hg hG
      exact hsplits.runs_iff.2 ⟨f, rest, hf, hws⟩
    · obtain ⟨first, us, join, f, hsplits, hf, rfl⟩ := hg hG
      exact hsplits.fails_iff.2 (.inr ⟨f, rest, hf, he⟩)

theorem returns_connect (level : Nat)
    (hexpression : ∀ level us, us.length ≤ ts.length → Does l G (.expression level) us)
    (hpower : G → level < (Lexeme.ofTokens l.stop ts).kind?.elim 0 Token.Kind.power)
    (hc : l.tokens.drop c.position = ts) :
    Returns l G (connect l left) c ts.length (StepRuns l.stop (.chain level left) ts level)
      (StepFails l.stop (.chain level left) ts level) := by
  have hright {level' : Nat} {c : Cursor} {us : List Token} {join : Filter → Filter}
      (hc : l.tokens.drop c.position = us) (hle : us.length ≤ ts.length)
      (hsplits : G → Splits l.stop (.chain level left) ts (.expression level') us level join) :
      Returns l G (do return join (← expression l level')) c ts.length
        (StepRuns l.stop (.chain level left) ts level) (StepFails l.stop (.chain level left) ts level) :=
    (hexpression level' us hle c hc).bind (fun g e he => ⟨_, us, join, hsplits g, he⟩)
      fun f vs rest hvs hlt hf =>
        returns_pure (drop_after hvs) (hlt.trans_le hle) fun g => ⟨_, us, join, f, hsplits g, hf g, rfl⟩
  rw [connect]
  refine returns_peek hc ?_
  cases ts with
  | nil => exact hright hc (Nat.le_refl _) fun g => absurd (hpower g) (Nat.not_lt_zero level)
  | cons t ts =>
    have hpower (g : G) : level < t.kind.power := hpower g
    simp only [Lexeme.ofTokens, Lexeme.kind?]
    split
    · rename_i hkind
      have hand : t.kind = .and := Option.some.inj hkind
      rw [hand] at hpower
      exact returns_advance hc (hright (drop_after_cons hc) (Nat.le_succ _) fun g => splits_and hand (hpower g))
    · rename_i hkind
      have hor : t.kind = .or := Option.some.inj hkind
      rw [hor] at hpower
      exact returns_advance hc (hright (drop_after_cons hc) (Nat.le_succ _) fun g => splits_or hor (hpower g))
    · rename_i hand hor
      -- the connective is left out, and its right operand begins here
      refine hright hc (Nat.le_refl _) fun g => splits_juxtaposed ?_ ?_ (hpower g)
      · simpa using hand
      · simpa using hor

theorem returns_chain (hexpression : ∀ level us, us.length ≤ ts.length → Does l G (.expression level) us)
    (hchain : ∀ f vs, vs.length < ts.length → Does l G (.chain level f) vs) (hc : l.tokens.drop c.position = ts) :
    Returns l G (chain l level left) c (ts.length + 1) (Runs l.stop (.chain level left) ts)
      (Fails l.stop (.chain level left) ts) := by
  rw [chain]
  refine returns_peek hc ?_
  by_cases hpower : level < (Lexeme.ofTokens l.stop ts).kind?.elim 0 Token.Kind.power
  · rw [if_pos hpower]
    exact returns_bind_chain (returns_connect level hexpression (fun _ => hpower) hc) (Nat.le_succ _) hchain
  · rw [if_neg hpower]
    have hstop : BindsWithin level (ts.map shape) := by
      cases ts with
      | nil => exact bindsWithin_nil level
      | cons t ts => exact bindsWithin_cons.2 (Nat.not_lt.1 hpower)
    exact returns_pure hc (Nat.lt_succ_self _) fun _ => (runs_stop_iff hstop).2 ⟨rfl, rfl⟩

/-- Every task is done. A task calls none but those with fewer tokens ahead or, where it has taken none, those of
a smaller size. -/
theorem does_task (hG : G → l.IsGenuine) (task : Task) (ts : List Token) : Does l G task ts := by
  induction hn : task.size ts using Nat.strong_induction_on generalizing task ts with
  | _ n ih =>
    subst hn
    intro c hc
    cases task with
    | operand =>
      cases ts with
      | nil =>
        refine returns_advance_end hc ?_
        rw [operand]
        exact returns_throw fun _ => by rw [Fails, Filter.operand.eq_def]
      | cons t ts =>
        have ht : t ∈ l.tokens := List.mem_of_mem_drop (hc ▸ List.mem_cons_self .. : t ∈ l.tokens.drop c.position)
        have hinner (level : Nat) : Does l G (.expression level) ts :=
          ih _ (by simp only [Task.size, List.length_cons]; omega) _ _ rfl
        have hname (g : G) := takesContent_of_isGenuine (hG g) ht
        exact returns_advance hc (returns_operand hG hname hinner (drop_after_cons hc))
    | expression level =>
      have hoperand := ih _ (Nat.lt_succ_self _) .operand ts rfl c hc
      have hwalk : routine l (.expression level) = routine l .operand >>= fun f => chain l level f := by
        change expression l level = (advance l >>= operand l) >>= chain l level
        rw [expression, bind_assoc]
      rw [hwalk]
      refine returns_bind_chain (hoperand.imp (Nat.le_refl ts.length) (fun _ f rest hf => ?_) fun _ e he => ?_)
        (Nat.le_refl _) fun f vs hvs => ?_
      · exact ⟨_, ts, _, f, splits_expression, hf, rfl⟩
      · exact ⟨_, ts, _, splits_expression, he⟩
      · exact ih _ (by simp only [Task.size]; omega) _ _ rfl
    | chain level left =>
      refine returns_chain (fun level' us hus => ?_) (fun f vs hvs => ?_) hc
      · exact ih _ (by simp only [Task.size]; omega) _ _ rfl
      · exact ih _ (by simp only [Task.size]; omega) _ _ rfl

end Expressions

/-! ## Whole texts -/

section Whole

variable {l : Token.Lexed} {G : Prop} {c : Cursor} {ts : List Token}

theorem returns_whole (hexpression : Does l G (.expression 0) ts) (hc : l.tokens.drop c.position = ts) :
    Returns l G (whole l) c 1 (fun f _ => Runs l.stop (.expression 0) ts f []) fun e =>
      Fails l.stop (.expression 0) ts e ∨
        ∃ f t rest, Runs l.stop (.expression 0) ts f (t :: rest) ∧ e = .misplaced (.afterFilter (.token t)) := by
  refine (hexpression c hc).bind (fun _ _ => .inl) fun f us rest hus _ hf => ?_
  have hrest := drop_after hus
  refine returns_peek hrest ?_
  cases rest with
  | nil => exact returns_pure hrest Nat.one_pos hf
  | cons t rest => exact returns_misplaced fun g => .inr ⟨f, t, rest, hf g, rfl⟩

end Whole

/-! ## Texts -/

section Texts

variable {s : String} {l : Token.Lexed}

theorem parse_eq_ok_of_runs {f : Filter} (hs : (Text.trim s.toList).isEmpty = false) (hl : Token.lex s = .ok l)
    (h : Runs l.stop (.expression 0) l.tokens f []) : parse s = .ok f := by
  obtain ⟨r, hr, rfl, hrest⟩ := h
  unfold parse
  rw [if_neg (by simp [hs])]
  refine bind_eq_ok_iff.2 ⟨l, hl, bind_eq_ok_iff.2 ⟨r, hr, ?_⟩⟩
  rw [hrest]
  rfl

/-- The walk along the tokens of a text gives what the parser gives. -/
theorem resultAt_whole (hs : (Text.trim s.toList).isEmpty = false) (hl : Token.lex s = .ok l) :
    ∃ us, us <+: l.tokens ∧
      resultAt (whole l) .start = some ((parse s).mapError .unreadable, Cursor.start.after us) ∧
      ∀ f, parse s = .ok f → us = l.tokens := by
  have hdone : Does l True (.expression 0) l.tokens := does_task (fun _ => Token.isGenuine_of_lex hl) _ _
  cases returns_whole hdone (c := .start) rfl with
  | @value f us rest hus hr hlt hf =>
    obtain rfl : rest = [] := List.eq_nil_of_length_eq_zero (by omega)
    rw [List.append_nil] at hus
    have hus : l.tokens = us := hus
    rw [parse_eq_ok_of_runs hs hl (hf trivial)]
    exact ⟨us, hus ▸ List.prefix_rfl, hr, fun _ _ => hus.symm⟩
  | @fault e us rest hus hr he =>
    obtain ⟨e, rfl, hfault⟩ := he trivial
    have hparse : parse s = .error e := parse_eq_error_iff.2 ⟨hs, .inr ⟨l, hl, hfault⟩⟩
    rw [hparse]
    exact ⟨us, ⟨rest, hus.symm⟩, hr, fun f hf => by cases hf⟩

/-- Wherever the routine is called, it comes back with the cursor behind tokens that stood next, each taken
once and none left out. It does not pass the end of the text. -/
def Proceeds {α : Type} (l : Token.Lexed) (m : Routine α) : Prop :=
  ∀ c, ∃ r us, us <+: l.tokens.drop c.position ∧ resultAt m c = some (r, c.after us) ∧
    (c.position ≤ l.tokens.length → (c.after us).position ≤ l.tokens.length)

/-- Every loop and every routine that calls itself proceeds, whatever it is called with and whatever the tokens
are that stand before the end of the text. -/
structure AllProceed (l : Token.Lexed) : Prop where
  expression (level : Nat) : Proceeds l (expression l level)
  operand (x : Lexeme) : Proceeds l (operand l x)
  connect (left : Filter) : Proceeds l (connect l left)
  chain (level : Nat) (left : Filter) : Proceeds l (chain l level left)
  qualified (t : Token) : Proceeds l (qualified l t)
  alternatives (name : String) (left : Filter) : Proceeds l (alternatives l name left)
  quotedWords (words : List String) : Proceeds l (quotedWords l words)
  sortKeys (name : String) (keys : List SortKey) : Proceeds l (sortKeys l name keys)
  whole : Proceeds l (whole l)

theorem Returns.exists_taken {α : Type} {G : Prop} {m : Routine α} {c : Cursor} {n : Nat}
    {Y : α → List Token → Prop} {F : SyntaxError → Prop} (h : Returns l G m c n Y F) :
    ∃ r us, us <+: l.tokens.drop c.position ∧ resultAt m c = some (r, c.after us) ∧
      (c.position ≤ l.tokens.length → (c.after us).position ≤ l.tokens.length) := by
  obtain ⟨r, us, rest, hus, hr⟩ : ∃ r us rest, l.tokens.drop c.position = us ++ rest ∧
      resultAt m c = some (r, c.after us) := by
    cases h with
    | value hus hr => exact ⟨_, _, _, hus, hr⟩
    | fault hus hr => exact ⟨_, _, _, hus, hr⟩
  refine ⟨r, us, ⟨rest, hus.symm⟩, hr, fun hc => ?_⟩
  have hlength := congrArg List.length hus
  simp only [List.length_drop, List.length_append] at hlength
  simp only [Cursor.after]
  omega

theorem allProceed (l : Token.Lexed) : AllProceed l := by
  -- nothing is asked of the tokens
  have hdoes (task : Task) (ts : List Token) : Does l False task ts := does_task False.elim task ts
  exact {
    expression := fun level c => (hdoes (.expression level) _ c rfl).exists_taken
    operand := fun x c => by
      cases x with
      | finish stop =>
        have hend : Returns l False (operand l (.finish stop)) c 0 (fun _ _ => True) fun _ => True := by
          rw [operand]
          exact returns_throw fun _ => trivial
        exact hend.exists_taken
      | token t =>
        have hinner (level : Nat) := hdoes (.expression level) (l.tokens.drop c.position)
        exact (returns_operand (t := t) False.elim False.elim hinner rfl).exists_taken
    connect := fun left c =>
      (returns_connect 0 (fun level us _ => hdoes (.expression level) us) False.elim rfl).exists_taken
    chain := fun level left c => (hdoes (.chain level left) _ c rfl).exists_taken
    qualified := fun t c => (returns_qualified False.elim False.elim rfl).exists_taken
    alternatives := fun name left c => (returns_alternatives False.elim False.elim rfl left).exists_taken
    quotedWords := fun words c => (returns_quotedWords (G := False) rfl words).exists_taken
    sortKeys := fun name keys c => (returns_sortKeys (G := False) rfl keys).exists_taken
    whole := fun c => (returns_whole (hdoes (.expression 0) _) rfl).exists_taken }

/-- Every routine of the parser comes back wherever it is called, and takes the tokens that it moves over once
each. A call for an expression that succeeds has taken a token at least. The walk along a text that is not blank
gives what the parser gives, and where that is a filter, it has taken all tokens of the text and no others. -/
theorem parse_takes_tokens : (∀ l, AllProceed l) ∧
    (∀ l level c f c', resultAt (expression l level) c = some (.ok f, c') → c.position < c'.position) ∧
    ∀ s, (Text.trim s.toList).isEmpty = false → match Token.lex s with
      | .error e => parse s = .error e
      | .ok l => ∃ us, us <+: l.tokens ∧
          resultAt (whole l) .start = some ((parse s).mapError .unreadable, Cursor.start.after us) ∧
          ∀ f, parse s = .ok f → us = l.tokens := by
  refine ⟨allProceed, fun l level c f c' h => ?_, fun s hs => ?_⟩
  · cases does_task (l := l) False.elim (.expression level) _ c rfl with
    | @value g us rest hus hr hlt =>
      rw [routine, h] at hr
      cases hr
      have hlength := congrArg List.length hus
      simp only [bound, List.length_append] at hlt hlength
      simp only [Cursor.after]
      omega
    | fault hus hr =>
      rw [routine, h] at hr
      cases hr
  · split
    case h_1 e he => exact parse_eq_error_iff.2 ⟨hs, .inl he⟩
    case h_2 l hl => exact resultAt_whole hs hl

/-- A conjunction without a sign, of which all four tokens are taken. -/
theorem parse_takes_tokens_juxtaposed :
    let l : Token.Lexed :=
      ⟨[⟨.symbol, "a", 0⟩, ⟨.openBracket, "(", 2⟩, ⟨.symbol, "b", 3⟩, ⟨.closeBracket, ")", 4⟩], 5⟩
    resultAt (whole l) .start = some (.ok (and (leaf (.keyword "a")) (leaf (.keyword "b"))), ⟨4, l.tokens⟩) ∧
      ∃ f c', resultAt (expression l 0) .start = some (.ok f, c') ∧ 0 < c'.position := by
  intro l
  obtain ⟨-, hprogress, hwhole⟩ := parse_takes_tokens
  have hlex : Token.lex "a (b)" = .ok l := by decide +kernel
  have hparse : parse "a (b)" = .ok (and (leaf (.keyword "a")) (leaf (.keyword "b"))) := by decide +kernel
  have h := hwhole "a (b)" (by decide)
  rw [hlex] at h
  obtain ⟨us, -, hr, hall⟩ := h
  obtain rfl := hall _ hparse
  rw [hparse] at hr
  refine ⟨hr, ?_⟩
  rw [whole, resultAt_bind] at hr
  cases hfirst : resultAt (expression l 0) .start with
  | none =>
    rw [hfirst] at hr
    cases hr
  | some result =>
    obtain ⟨_ | f, c'⟩ := result
    · rw [hfirst] at hr
      cases hr
    · exact ⟨f, c', rfl, hprogress l 0 .start f c' hfirst⟩

end Texts

end Walk

end IssueQuery.Filter
