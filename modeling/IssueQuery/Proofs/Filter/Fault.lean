/-
Where the parser fails: at a token that is there, or at the end of a text that could have gone on to be
what was to be read.
-/
import IssueQuery.Proofs.Filter.Reads

namespace IssueQuery

/-- What stands where the fault lies. A foreign character is neither a token nor the end. -/
def SyntaxError.found? : SyntaxError → Option Lexeme
  | unrecognised .. => none
  | endedEarly offset => some (.finish offset)
  | misplaced problem => some problem.found

namespace Filter

open Token (Shape shape)
open Qualifier (Content)

/-! ## Faults and the texts they cut short -/

/-- A token that is an operand, a number and a sort key. -/
def zero : Shape := ⟨.symbol, "0"⟩

def star : Shape := ⟨.star, "*"⟩

def quote : Shape := ⟨.quote, "\""⟩

def closeBracket : Shape := ⟨.closeBracket, ")"⟩

/-- The tokens that complete whatever was begun. -/
def completions : List Shape := [zero, star, quote, closeBracket]

/-- The fault lies at one of the tokens, or it is that they end, where some of the completions make
one of `L` of them. -/
def FaultIn (stop : Nat) (ts : List Token) (L : List Shape → Prop) (e : SyntaxError) : Prop :=
  (∃ t ∈ ts, e.found? = some (.token t)) ∨
    e.found? = some (.finish stop) ∧ ∃ us, us ⊆ completions ∧ L (ts.map shape ++ us)

section FaultIn

variable {stop : Nat} {t : Token} {ts us : List Token} {L L' : List Shape → Prop} {e : SyntaxError} {s : Shape}

theorem faultIn_token (ht : t ∈ ts) (he : e.found? = some (.token t)) : FaultIn stop ts L e := .inl ⟨t, ht, he⟩

theorem faultIn_finish (hs : s ∈ completions) (he : e.found? = some (.finish stop)) (hL : L (ts.map shape ++ [s])) :
    FaultIn stop ts L e := .inr ⟨he, [s], List.cons_subset.2 ⟨hs, List.nil_subset _⟩, hL⟩

/-- A fault of a part is one of the whole, if the whole goes on where the part does. -/
theorem FaultIn.mono (h : FaultIn stop us L e) (hsub : us ⊆ ts)
    (hL : ∀ ss, L (us.map shape ++ ss) → L' (ts.map shape ++ ss)) : FaultIn stop ts L' e := by
  rcases h with ⟨t, ht, he⟩ | ⟨he, ss, hss, h⟩
  · exact faultIn_token (hsub ht) he
  · exact .inr ⟨he, ss, hss, hL ss h⟩

/-- A fault of a part is one of the whole, if the whole ends with one more token. -/
theorem FaultIn.close (h : FaultIn stop us L e) (hsub : us ⊆ ts) (hs : s ∈ completions)
    (hL : ∀ ss, L (us.map shape ++ ss) → L' (ts.map shape ++ (ss ++ [s]))) : FaultIn stop ts L' e := by
  rcases h with ⟨t, ht, he⟩ | ⟨he, ss, hss, h⟩
  · exact faultIn_token (hsub ht) he
  · exact .inr ⟨he, ss ++ [s], List.append_subset.2 ⟨hss, List.cons_subset.2 ⟨hs, List.nil_subset _⟩⟩, hL ss h⟩

end FaultIn

theorem zero_mem_completions : zero ∈ completions := by simp [completions]

theorem star_mem_completions : star ∈ completions := by simp [completions]

theorem quote_mem_completions : quote ∈ completions := by simp [completions]

theorem kind_closeBracket : closeBracket.kind = .closeBracket := rfl

theorem closeBracket_mem_completions : closeBracket ∈ completions := by simp [completions]

theorem number?_zero : zero.number? = some 0 := by decide

/-! ## Quoted phrases -/

section Contents

variable {name : String} {stop : Nat} {t : Token} {ts : List Token} {e : SyntaxError}

theorem faultIn_of_quotedWords (h : quotedWords stop ts = .error e) :
    FaultIn stop ts (fun ss => ∀ s ∈ ss, s.kind = .symbol ∨ s.kind = .date) e := by
  induction ts with
  | nil =>
    cases h
    exact .inr ⟨rfl, [], List.nil_subset _, List.forall_mem_nil _⟩
  | cons t ts ih =>
    have hword (hk : t.kind = .symbol ∨ t.kind = .date) (h : quotedWords stop ts = .error e) :
        FaultIn stop (t :: ts) (fun ss => ∀ s ∈ ss, s.kind = .symbol ∨ s.kind = .date) e :=
      (ih h).mono (List.subset_cons_self ..) fun ss hss => List.forall_mem_cons.2 ⟨hk, hss⟩
    rw [quotedWords] at h
    split at h
    · cases h
    · exact hword (.inl ‹_›) (map_eq_error_iff.1 h)
    · exact hword (.inr ‹_›) (map_eq_error_iff.1 h)
    · cases h
      exact faultIn_token (List.mem_cons_self ..) rfl

theorem faultIn_of_quoted (ht : t.kind = .quote) (h : quoted stop ts = .error e) :
    FaultIn stop (t :: ts) (fun ss => ∃ s, IsQuoted ss s) e := by
  refine (faultIn_of_quotedWords (map_eq_error_iff.1 h)).close (List.subset_cons_self ..) quote_mem_completions ?_
  intro ss hss
  rw [← List.append_assoc]
  exact ⟨_, .mk ht hss rfl⟩

/-! ## Sort keys -/

theorem faultIn_of_sortKey (h : sortKey name stop ts = .error e) : FaultIn stop ts (fun ss => ∃ k, IsKey ss k) e := by
  unfold sortKey at h
  split at h
  · cases h
    exact faultIn_finish zero_mem_completions rfl ⟨_, .plain rfl⟩
  · rename_i t ts
    generalize hk : t.kind = kind at h
    cases kind with
    | symbol => cases h
    | not =>
      cases ts with
      | nil =>
        cases h
        exact faultIn_finish zero_mem_completions rfl ⟨_, .reversed hk rfl⟩
      | cons key ts =>
        dsimp only at h
        split at h
        · cases h
        · cases h
          exact faultIn_token (t := key) (by simp) rfl
    | _ =>
      cases h
      exact faultIn_token (List.mem_cons_self ..) rfl

theorem sortKeys_eq_error_iff : sortKeys name stop ts = .error e ↔ sortKey name stop ts = .error e ∨
    ∃ k t us, Yields (sortKey name stop ts) k (t :: us) ∧ t.kind = .comma ∧ sortKeys name stop us = .error e := by
  rw [sortKeys, bind_eq_error_iff]
  refine or_congr_right ⟨?_, ?_⟩
  · rintro ⟨⟨k, tail, hlt⟩, hk, h⟩
    dsimp only at h
    split at h
    · cases h
    · rename_i t us
      split at h
      · rename_i hc
        exact ⟨k, t, us, ⟨_, hk, rfl, rfl⟩, hc, map_eq_error_iff.1 h⟩
      · cases h
  · rintro ⟨_, t, us, ⟨⟨k, tail, hlt⟩, hk, rfl, rfl⟩, hc, h⟩
    refine ⟨_, hk, ?_⟩
    dsimp only
    rw [if_pos hc]
    exact map_eq_error_iff.2 h

theorem faultIn_of_sortKeys (h : sortKeys name stop ts = .error e) :
    FaultIn stop ts (fun ss => ∃ ks, IsKeys ss ks) e := by
  induction hn : ts.length using Nat.strong_induction_on generalizing ts with
  | _ n ih =>
    rcases sortKeys_eq_error_iff.1 h with hkey | ⟨k, t, us, hk, hc, hkeys⟩
    · exact (faultIn_of_sortKey hkey).mono (List.Subset.refl _) fun ss ⟨k, hk⟩ => ⟨_, .one hk⟩
    · obtain ⟨vs, rfl, hvs⟩ := yields_sortKey_iff.1 hk
      refine (ih _ (by simp at hn ⊢; omega) hkeys rfl).mono (by simp) fun ss ⟨ks, hks⟩ => ⟨k :: ks, ?_⟩
      simpa using IsKeys.cons hvs (show (shape t).kind = .comma from hc) hks

/-! ## Ranges -/

theorem found?_of_dateOf (h : dateOf t = .error e) : e.found? = some (.token t) := by
  unfold dateOf at h
  split at h
  · cases h
  · cases h
    rfl

theorem found?_of_dateBound (h : dateBound name t = .error e) : e.found? = some (.token t) := by
  unfold dateBound at h
  split at h
  · exact found?_of_dateOf h
  · cases h
    rfl

theorem found?_of_numberBound (h : numberBound name t = .error e) : e.found? = some (.token t) := by
  unfold numberBound at h
  split at h
  · cases h
  · cases h
    rfl

theorem faultIn_of_afterBound {α : Type} {bound : Token → Except SyntaxError α} {value? : Shape → Option α}
    {one : α → Content} {range : Range α → Content} {a : α}
    (hb : ∀ t e, bound t = .error e → e.found? = some (.token t)) (ha : value? (shape t) = some a)
    (h : afterBound name stop bound one range a ts = .error e) :
    FaultIn stop (t :: ts) (fun ss => ∃ c, IsSpan value? one range ss c) e := by
  unfold afterBound at h
  split at h
  · cases h
  · rename_i d ts
    split at h
    · rename_i hd
      split at h
      · cases h
        exact faultIn_finish star_mem_completions rfl ⟨_, .onwards ha hd rfl⟩
      · rename_i u ts
        split at h
        · cases h
        · exact faultIn_token (t := u) (by simp) (hb u e (map_eq_error_iff.1 h))
    · cases h

theorem faultIn_of_halfOpen {sign : Token.Kind} (h : halfOpen name stop sign ts = .error e) :
    FaultIn stop ts (fun ss => ∃ s n, ss = [s] ∧ s.number? = some n) e := by
  unfold halfOpen at h
  split at h
  · cases h
    exact faultIn_finish zero_mem_completions rfl ⟨zero, 0, rfl, number?_zero⟩
  · rename_i t ts
    refine faultIn_token (List.mem_cons_self ..) ?_
    dsimp only at h
    split at h
    · exact found?_of_dateOf (map_eq_error_iff.1 h)
    · exact found?_of_numberBound (map_eq_error_iff.1 h)

/-! ## Contents and choices -/

theorem exists_isContent_zero (name : String) : ∃ c, IsContent name [zero] c := by
  by_cases hs : Qualifier.Kind.ofName name = .sort
  · exact ⟨_, .sortKeys hs (.one (.plain rfl))⟩
  · exact ⟨_, .numbers hs (.one number?_zero)⟩

theorem faultIn_of_content (h : content name stop ts = .error e) :
    FaultIn stop ts (fun ss => ∃ c, IsContent name ss c) e := by
  unfold content at h
  split at h
  · cases h
    exact faultIn_finish zero_mem_completions rfl (exists_isContent_zero name)
  -- sort keys, a half-open range, or what the kind of the first token tells
  rename_i t ts
  split at h
  · rename_i hs
    refine (faultIn_of_sortKeys (map_eq_error_iff.1 h)).mono (List.Subset.refl _) ?_
    rintro ss ⟨ks, hks⟩
    exact ⟨_, .sortKeys hs hks⟩
  · rename_i hs
    split at h
    · rename_i hop
      refine (faultIn_of_halfOpen (map_eq_error_iff.1 h)).mono (List.subset_cons_self ..) ?_
      rintro ss ⟨s, n, hss, hn⟩
      exact ⟨_, .numbers hs ((isSpan_sign_iff (fun s n h => (number?_kind s n h).1) hop).2 ⟨s, n, hss, hn, rfl⟩)⟩
    · split at h
      · rename_i hk
        rcases bind_eq_error_iff.1 h with h | ⟨d, hd, h⟩
        · exact faultIn_token (List.mem_cons_self ..) (found?_of_dateOf h)
        · refine (faultIn_of_afterBound (fun _ _ => found?_of_dateBound) ((dateOf_eq_ok_iff hk).1 hd)
            (map_eq_error_iff.1 h)).mono (List.Subset.refl _) ?_
          rintro ss ⟨c, hc⟩
          exact ⟨c, .dates hs hc⟩
      · split at h
        · rename_i n hn
          have hn : (shape t).number? = some n := hn
          refine (faultIn_of_afterBound (fun _ _ => found?_of_numberBound) hn (map_eq_error_iff.1 h)).mono
            (List.Subset.refl _) ?_
          rintro ss ⟨c, hc⟩
          exact ⟨c, .numbers hs hc⟩
        · cases h
      · rename_i hk
        refine (faultIn_of_quoted hk (map_eq_error_iff.1 h)).mono (List.Subset.refl _) ?_
        rintro ss ⟨s, hq⟩
        exact ⟨_, .quoted hs hq⟩
      · cases h
        exact faultIn_token (List.mem_cons_self ..) rfl

theorem alternatives_eq_error_iff {left : Filter} : alternatives name stop left ts = .error e ↔
    ∃ t us, ts = t :: us ∧ t.kind = .semicolon ∧ (content name stop us = .error e ∨
      ∃ c vs, Yields (content name stop us) c vs ∧
        alternatives name stop (or left (leaf (.named name c))) vs = .error e) := by
  rw [alternatives.eq_def]
  constructor
  · intro h
    split at h
    · cases h
    · rename_i t us
      split at h
      · rename_i hk
        refine ⟨t, us, rfl, hk, ?_⟩
        rcases bind_eq_error_iff.1 h with h | ⟨r, hr, h⟩
        · exact .inl h
        · exact .inr ⟨_, _, ⟨r, hr, rfl, rfl⟩, map_eq_error_iff.1 h⟩
      · cases h
  · rintro ⟨t, us, rfl, hk, h⟩
    dsimp only
    rw [if_pos hk, bind_eq_error_iff]
    rcases h with h | ⟨_, _, ⟨r, hr, rfl, rfl⟩, h⟩
    · exact .inl h
    · exact .inr ⟨r, hr, map_eq_error_iff.2 h⟩

theorem qualified_eq_error_iff : qualified stop t ts = .error e ↔ content (shape t).name stop ts = .error e ∨
    ∃ c vs, Yields (content (shape t).name stop ts) c vs ∧
      alternatives (shape t).name stop (leaf (.named (shape t).name c)) vs = .error e := by
  unfold qualified
  rw [bind_eq_error_iff]
  refine or_congr_right ⟨?_, ?_⟩
  · rintro ⟨r, hr, h⟩
    exact ⟨_, _, ⟨r, hr, rfl, rfl⟩, map_eq_error_iff.1 h⟩
  · rintro ⟨_, _, ⟨r, hr, rfl, rfl⟩, h⟩
    exact ⟨r, hr, map_eq_error_iff.2 h⟩

theorem faultIn_of_alternatives {left : Filter} {ls : List Shape} (hl : IsChoice name ls left)
    (h : alternatives name stop left ts = .error e) :
    FaultIn stop ts (fun ss => ∃ f, IsChoice name (ls ++ ss) f) e := by
  -- `ls` are the contents that were read before
  induction hn : ts.length using Nat.strong_induction_on generalizing ts left ls with
  | _ n ih =>
    obtain ⟨t, us, rfl, hk, hnext | ⟨c, vs, hc, htail⟩⟩ := alternatives_eq_error_iff.1 h
    · exact (faultIn_of_content hnext).mono (List.subset_cons_self ..) fun ss ⟨c, hc⟩ => ⟨_, .or hl hk hc⟩
    · obtain ⟨us, rfl, hus⟩ := isContent_of_yields hc
      have hl : IsChoice name (ls ++ shape t :: us.map shape) _ := .or hl hk hus
      exact (ih _ (by simp at hn ⊢; omega) hl htail rfl).mono (by simp) fun ss ⟨f, hf⟩ => ⟨f, by simpa using hf⟩

theorem faultIn_of_qualified (h : qualified stop t ts = .error e) :
    FaultIn stop ts (fun ss => ∃ f, IsChoice (shape t).name ss f) e := by
  rcases qualified_eq_error_iff.1 h with hfirst | ⟨c, vs, hc, htail⟩
  · exact (faultIn_of_content hfirst).mono (List.Subset.refl _) fun ss ⟨c, hc⟩ => ⟨_, .one hc⟩
  · obtain ⟨us, rfl, hus⟩ := isContent_of_yields hc
    exact (faultIn_of_alternatives (.one hus) htail).mono (by simp) fun ss ⟨f, hf⟩ => ⟨f, by simpa using hf⟩

end Contents

/-! ## Expressions -/

section Tasks

variable {stop level : Nat} {t : Token} {ts rest : List Token} {e : SyntaxError} {f left : Filter}

theorem fails_quote_iff (ht : t.kind = .quote) : Fails stop .operand (t :: ts) e ↔ quoted stop ts = .error e := by
  rw [Fails, operand.eq_def]
  simp only [ht]
  exact map_eq_error_iff

theorem fails_qualifier_iff (ht : t.kind = .qualifier) :
    Fails stop .operand (t :: ts) e ↔ qualified stop t ts = .error e := by
  rw [Fails, operand.eq_def]
  simp only [ht]
  exact map_eq_error_iff

theorem fails_not_iff (ht : t.kind = .not) :
    Fails stop .operand (t :: ts) e ↔ Fails stop (.expression 3) ts e := by
  rw [Fails, operand.eq_def]
  simp only [ht]
  exact map_eq_error_iff

theorem closed_eq_error_iff {inner : Reading Filter ts} : closed stop inner = .error e ↔
    (∀ c ∈ inner.rest.head?, c.kind ≠ .closeBracket) ∧
      e = .misplaced (.unclosedBracket (.ofTokens stop inner.rest)) := by
  unfold closed
  split
  · rename_i h
    simp [h, Lexeme.ofTokens, eq_comm]
  · rename_i t us h
    split
    · rename_i hk
      simp [h, hk]
    · rename_i hk
      simp [h, Ne.symm hk, Lexeme.ofTokens, eq_comm]

theorem fails_brackets_iff (ht : t.kind = .openBracket) : Fails stop .operand (t :: ts) e ↔
    Fails stop (.expression 0) ts e ∨ ∃ f rest, Runs stop (.expression 0) ts f rest ∧
      (∀ c ∈ rest.head?, c.kind ≠ .closeBracket) ∧ e = .misplaced (.unclosedBracket (.ofTokens stop rest)) := by
  rw [Fails, operand.eq_def]
  simp only [ht]
  rw [bind_eq_error_iff]
  refine or_congr_right ⟨?_, ?_⟩
  · rintro ⟨r, hr, h⟩
    obtain ⟨hc, he⟩ := closed_eq_error_iff.1 (map_eq_error_iff.1 h)
    exact ⟨r.value, r.rest, ⟨r, hr, rfl, rfl⟩, hc, he⟩
  · rintro ⟨_, _, ⟨r, hr, rfl, rfl⟩, hc, he⟩
    exact ⟨r, hr, map_eq_error_iff.2 (closed_eq_error_iff.2 ⟨hc, he⟩)⟩

/-- The tokens are what the task takes, whatever follows that no filter takes in. -/
def Completes (task : Task) (ss : List Shape) : Prop :=
  ∃ f, ∀ rest, Settled rest → BindsWithin 0 rest → Reads task (ss ++ rest) f rest

/-- A chain that fails does so after a token that goes on with it. -/
theorem settled_of_fails (h : Fails stop (.chain level left) ts e) : ts ≠ [] ∧ Settled (ts.map shape) := by
  cases ts with
  | nil => exact absurd h (not_fails_stop (bindsWithin_nil level))
  | cons t ts =>
    refine ⟨List.cons_ne_nil t ts, settled_of_power ?_⟩
    by_contra hpower
    exact not_fails_stop (bindsWithin_cons.2 (Nat.le_of_not_lt fun hl => hpower (Nat.zero_lt_of_lt hl))) h

/-! ### One step at a time -/

theorem faultIn_quote (hk : t.kind = .quote) (h : Fails stop .operand (t :: ts) e) :
    FaultIn stop (t :: ts) (Completes .operand) e := by
  refine (faultIn_of_quoted hk ((fails_quote_iff hk).1 h)).mono (List.Subset.refl _) ?_
  rintro ss ⟨s, hq⟩
  exact ⟨_, fun rest _ _ => .quoted hq⟩

theorem faultIn_qualifier (hk : t.kind = .qualifier) (h : Fails stop .operand (t :: ts) e) :
    FaultIn stop (t :: ts) (Completes .operand) e := by
  refine (faultIn_of_qualified ((fails_qualifier_iff hk).1 h)).mono (List.subset_cons_self ..) ?_
  rintro ss ⟨f, hf⟩
  exact ⟨f, fun rest hs _ => .qualifier hk hf hs⟩

theorem faultIn_not (hk : t.kind = .not)
    (hinner : ∀ {e}, Fails stop (.expression 3) ts e → FaultIn stop ts (Completes (.expression 3)) e)
    (h : Fails stop .operand (t :: ts) e) : FaultIn stop (t :: ts) (Completes .operand) e := by
  refine (hinner ((fails_not_iff hk).1 h)).mono (List.subset_cons_self ..) ?_
  rintro ss ⟨f, hf⟩
  exact ⟨.not f, fun rest hs hb => .not hk (hf rest hs hb)⟩

/-- In brackets the fault lies in the expression, or at what stands for the bracket that closes them. -/
theorem faultIn_brackets (hk : t.kind = .openBracket)
    (hinner : ∀ {e}, Fails stop (.expression 0) ts e → FaultIn stop ts (Completes (.expression 0)) e)
    (h : Fails stop .operand (t :: ts) e) : FaultIn stop (t :: ts) (Completes .operand) e := by
  rcases (fails_brackets_iff hk).1 h with hin | ⟨f, rest, hf, hc, rfl⟩
  · refine (hinner hin).close (List.subset_cons_self ..) closeBracket_mem_completions ?_
    rintro ss ⟨f, hf⟩
    refine ⟨f, fun rest _ _ => .brackets hk ?_ kind_closeBracket⟩
    simpa using hf (closeBracket :: rest) (settled_of_close kind_closeBracket)
      (bindsWithin_close kind_closeBracket 0 rest)
  · cases rest with
    | nil =>
      have hread := reads_of_runs (.expression 0) ts hf (avoids_nil _)
      refine faultIn_finish closeBracket_mem_completions rfl ⟨f, fun rest _ _ => ?_⟩
      refine .brackets hk ?_ kind_closeBracket
      simpa using hread.append_close kind_closeBracket rest
    | cons c rest =>
      have hsub := (isSuffix_of_runs (.expression 0) ts hf).subset
      exact faultIn_token (List.mem_cons_of_mem _ (hsub (List.mem_cons_self ..))) rfl

/-- A fault of an operand, where an expression among the tokens behind its first has none but such faults. -/
theorem faultIn_operand (hinner : ∀ level us, us.length < ts.length → ∀ {e}, Fails stop (.expression level) us e →
    FaultIn stop us (Completes (.expression level)) e) (h : Fails stop .operand ts e) :
    FaultIn stop ts (Completes .operand) e := by
  cases ts with
  | nil =>
    rw [Fails, operand.eq_def] at h
    cases h
    exact faultIn_finish zero_mem_completions rfl ⟨_, fun rest _ _ => .symbol rfl⟩
  | cons t ts =>
    generalize hk : t.kind = kind
    cases kind with
    | symbol =>
      rw [Fails, operand.eq_def] at h
      simp only [hk] at h
      cases h
    | quote => exact faultIn_quote hk h
    | qualifier => exact faultIn_qualifier hk h
    | not => exact faultIn_not hk (hinner 3 ts (Nat.lt_succ_self _)) h
    | openBracket => exact faultIn_brackets hk (hinner 0 ts (Nat.lt_succ_self _)) h
    | _ =>
      rw [Fails, operand.eq_def] at h
      simp only [hk] at h
      cases h
      exact faultIn_token (List.mem_cons_self ..) rfl

/-- A task that is split fails in its first part, or in the chain behind what that has read. -/
theorem Splits.faultIn {task first : Task} {us : List Token} {join : Filter → Filter}
    (hsplits : Splits stop task ts first us level join)
    (hfirst : ∀ {e}, Fails stop first us e → FaultIn stop us (Completes first) e)
    (hchain : ∀ g vs, Runs stop first us g vs → ∀ {e}, Fails stop (.chain level (join g)) vs e →
      FaultIn stop vs (Completes (.chain level (join g))) e)
    (h : Fails stop task ts e) : FaultIn stop ts (Completes task) e := by
  rcases hsplits.fails_iff.1 h with hfails | ⟨g, vs, hg, hfails⟩
  · refine (hfirst hfails).mono hsplits.suffix.subset ?_
    rintro ss ⟨f, hf⟩
    refine ⟨join f, fun rest hs hb => ?_⟩
    rw [List.append_assoc]
    refine hsplits.reads ?_ (.stop (hb.mono (Nat.zero_le level)))
    rw [← List.append_assoc]
    exact hf rest hs hb
  · obtain ⟨hne, hsettled⟩ := settled_of_fails hfails
    have hread := reads_of_runs first us hg hsettled
    refine (hchain g vs hg hfails).mono ((isSuffix_of_runs first us hg).trans hsplits.suffix).subset ?_
    rintro ss ⟨f, hf⟩
    refine ⟨f, fun rest hs hb => ?_⟩
    rw [List.append_assoc]
    refine hsplits.reads (hread.append (.inl (by simpa using hne))) ?_
    rw [← List.append_assoc]
    exact hf rest hs hb

/-- Where the parser fails at a task, it stands before a token that is there, or before the end of
tokens that others could have completed. -/
theorem faultIn_of_fails (task : Task) (ts : List Token) (h : Fails stop task ts e) :
    FaultIn stop ts (Completes task) e := by
  induction task, ts using Task.induction stop generalizing e with
  | operand ts ih => exact faultIn_operand ih h
  | done level left ts hb => exact absurd h (not_fails_stop hb)
  | splits task ts first us level join hsplits ih1 ih2 => exact hsplits.faultIn ih1 ih2 h

end Tasks

end Filter

end IssueQuery
