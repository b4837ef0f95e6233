/-
Tokens of a filter of which the last are not there. On what there is the parser ends, or it misses the
others where they would stand.
-/
import IssueQuery.Proofs.Filter.Fault
import IssueQuery.Proofs.Token.Beginning

namespace IssueQuery.Filter

open Token (Shape shape Begins)
open Qualifier (Content)

/-- The reader leaves nothing, or it fails at the end of the text. -/
def Halts {α : Type} {ts : List Token} (stop : Nat) (x : Except SyntaxError (Reading α ts)) : Prop :=
  (∃ a, Yields x a []) ∨ ∃ e, x = .error e ∧ e.found? = some (.finish stop)

theorem Halts.map {α γ : Type} {ts us : List Token} {stop : Nat} {x : Except SyntaxError (Reading γ ts)}
    (h : Halts stop x) (f : γ → α) {g : Reading γ ts → Reading α us} (hv : ∀ r, (g r).value = f r.value)
    (hr : ∀ r, (g r).rest = r.rest) : Halts stop (x >>= fun r => pure (g r)) := by
  rcases h with ⟨c, hc⟩ | ⟨e, he, hfound⟩
  · exact .inl ⟨f c, (yields_map_iff f hv hr).2 ⟨c, hc, rfl⟩⟩
  · exact .inr ⟨e, map_eq_error_iff.2 he, hfound⟩

/-- As `Halts`, for a reader that may use nothing. -/
def HaltsAfter {α : Type} {ts : List Token} (stop : Nat) (x : Except SyntaxError (Remainder α ts)) : Prop :=
  (∃ a, Leaves x a []) ∨ ∃ e, x = .error e ∧ e.found? = some (.finish stop)

/-- A reader that hands on what another leaves. -/
theorem HaltsAfter.past {α : Type} {ts us : List Token} {stop : Nat} {x : Except SyntaxError (Remainder α us)}
    (h : HaltsAfter stop x) {g : Remainder α us → Reading α ts} (hv : ∀ r, (g r).value = r.value)
    (hr : ∀ r, (g r).rest = r.rest) : Halts stop (x >>= fun r => pure (g r)) := by
  rcases h with ⟨a, ha⟩ | ⟨e, he, hfound⟩
  · exact .inl ⟨a, (yields_remainder_iff hv hr).2 ha⟩
  · exact .inr ⟨e, map_eq_error_iff.2 he, hfound⟩

/-- Where something is missing of two lists, it is missing of the first, or of the second alone. -/
theorem exists_of_append_cons {α : Type} {as bs xs ys : List α} {b : α} (h : as ++ b :: bs = xs ++ ys) :
    (∃ x zs, xs = as ++ x :: zs) ∨ ∃ zs, as = xs ++ zs ∧ zs ++ b :: bs = ys := by
  rcases List.append_eq_append_iff.1 h with ⟨zs, rfl, hzs⟩ | ⟨zs, rfl, hzs⟩
  · cases zs with
    | nil => exact .inr ⟨[], by simp, hzs⟩
    | cons z zs => exact .inl ⟨z, zs, rfl⟩
  · exact .inr ⟨zs, rfl, hzs.symm⟩

/-! ## Quoted phrases and sort keys -/

section Contents

variable {name : String} {stop : Nat} {t u : Token} {ts us vs : List Token} {c : Content}

theorem quotedWords_eq_error (h : ∀ t ∈ ts, t.kind = .symbol ∨ t.kind = .date) :
    quotedWords stop ts = .error (.misplaced (.unclosedQuote (.finish stop))) := by
  induction ts with
  | nil => rfl
  | cons t ts ih =>
    have hrest := ih fun t ht => h t (List.mem_cons_of_mem _ ht)
    rw [quotedWords]
    rcases h t (List.mem_cons_self ..) with hk | hk
    · simp only [hk]
      exact map_eq_error_iff.2 hrest
    · simp only [hk]
      exact map_eq_error_iff.2 hrest

theorem halts_quoted {s : String} (h : IsQuoted ((t :: (ts ++ u :: us)).map shape) s) :
    Halts stop (quoted stop ts) := by
  obtain ⟨t', ws, q, hts, -, hws, -⟩ := isQuoted_map_iff.1 h
  obtain ⟨-, hts⟩ := List.cons.inj hts
  -- what is there has only words, since the closing quote is not
  have hwords : ∀ t ∈ ts, t ∈ ws := by
    rcases exists_of_append_cons hts with ⟨w, zs, rfl⟩ | ⟨zs, rfl, hzs⟩
    · exact fun t ht => List.mem_append_left _ ht
    · obtain ⟨rfl, -⟩ : zs = [] ∧ _ := by
        cases zs with
        | nil => exact ⟨rfl, hzs⟩
        | cons z zs => simp at hzs
      simp
  exact .inr ⟨_, map_eq_error_iff.2 (quotedWords_eq_error fun t ht => hws t (hwords t ht)), rfl⟩

theorem sortKey_eq_error {k : SortKey} (h : IsKey ((ts ++ u :: us).map shape) k) :
    sortKey name stop ts = .error (.misplaced (.noContent name (.finish stop))) := by
  generalize hss : (ts ++ u :: us).map shape = ss at h
  cases ts with
  | nil => rfl
  | cons t ts =>
    -- of what has two tokens, only the negation is there
    cases h with
    | plain => simp at hss
    | reversed hn =>
      obtain ⟨rfl, hss⟩ := List.cons.inj hss
      have hnil : ts = [] := by
        have := congrArg List.length hss
        simp at this
        exact List.eq_nil_of_length_eq_zero (by omega)
      subst hnil
      have hn : t.kind = .not := hn
      simp only [sortKey, hn]

theorem halts_sortKeys {ks : List SortKey} (h : IsKeys ((ts ++ u :: us).map shape) ks) :
    Halts stop (sortKeys name stop ts) := by
  generalize hss : (ts ++ u :: us).map shape = ss at h
  induction h generalizing ts with
  | one hk => exact .inr ⟨_, sortKeys_eq_error_iff.2 (.inl (sortKey_eq_error (hss ▸ hk))), rfl⟩
  | cons hk hc _ ih =>
    obtain ⟨xs, ys, hts, rfl, hys⟩ := List.map_eq_append_iff.1 hss
    obtain ⟨comma, ys, rfl, rfl, rfl⟩ := List.map_eq_cons_iff.1 hys
    rcases exists_of_append_cons hts with ⟨x, zs, rfl⟩ | ⟨zs, rfl, hzs⟩
    · exact .inr ⟨_, sortKeys_eq_error_iff.2 (.inl (sortKey_eq_error hk)), rfl⟩
    · have hkey : Yields (sortKey name stop (xs ++ zs)) _ zs := yields_sortKey_iff.2 ⟨xs, rfl, hk⟩
      cases zs with
      | nil => exact .inl ⟨_, yields_sortKeys_iff.2 ⟨_, [], hkey, .inl ⟨rfl, rfl, avoids_nil _⟩⟩⟩
      | cons z zs =>
        obtain ⟨rfl, rfl⟩ := List.cons.inj hzs
        rcases ih rfl with ⟨ks, hks⟩ | ⟨e, he, hfound⟩
        · exact .inl ⟨_, yields_sortKeys_iff.2 ⟨_, _, hkey, .inr ⟨z, zs, ks, rfl, hc, hks, rfl⟩⟩⟩
        · exact .inr ⟨e, sortKeys_eq_error_iff.2 (.inr ⟨_, z, zs, hkey, hc, he⟩), hfound⟩

/-! ## Ranges -/

theorem eq_nil_of_map_eq_singleton {s : Shape} (h : (ts ++ u :: us).map shape = [s]) : ts = [] := by
  obtain ⟨t, hts, -⟩ := List.map_eq_singleton_iff.1 h
  cases ts with
  | nil => rfl
  | cons t ts => simp at hts

/-- Of a span that begins with a value, the value alone is there, or all but the bound at its end. -/
theorem halts_afterBound {α : Type} {bound : Token → Except SyntaxError α} {value? : Shape → Option α}
    {one : α → Content} {range : Range α → Content} {a : α}
    (hv : ∀ s a, value? s = some a → s.kind.isRangeOperator = false) (ha : value? (shape t) = some a)
    (h : IsSpan value? one range ((t :: (ts ++ u :: us)).map shape) c) :
    HaltsAfter stop (afterBound name stop bound one range a ts) := by
  obtain ⟨d, x, hss, hd⟩ : ∃ d x, (ts ++ u :: us).map shape = [d, x] ∧ d.kind = .dots := by
    rw [List.map_cons, isSpan_value_iff hv ha] at h
    rcases h with ⟨hnil, -⟩ | ⟨d, x, b, hss, hd, -⟩ | ⟨d, x, hss, hd, -⟩
    · simp at hnil
    · exact ⟨d, x, hss, hd⟩
    · exact ⟨d, x, hss, hd⟩
  cases ts with
  | nil => exact .inl ⟨_, leaves_pure.2 ⟨rfl, rfl⟩⟩
  | cons dots ts =>
    obtain ⟨rfl, hlast⟩ := List.cons.inj hss
    obtain rfl := eq_nil_of_map_eq_singleton hlast
    have hd : dots.kind = .dots := hd
    refine .inr ⟨.misplaced (.badContent name (.finish stop)), ?_, rfl⟩
    simp only [afterBound, hd, reduceIte]

/-! ## Contents and choices -/

/-- Of a half-open range only the sign is there; any other span begins with a value. -/
theorem halts_span {α : Type} {value? : Shape → Option α} {one : α → Content} {range : Range α → Content}
    (hs : Qualifier.Kind.ofName name ≠ .sort) (hv : ∀ s a, value? s = some a → s.kind.isRangeOperator = false)
    (h : IsSpan value? one range ((t :: (ts ++ u :: us)).map shape) c)
    (hvalue : ∀ a, value? (shape t) = some a → Halts stop (content name stop (t :: ts))) :
    Halts stop (content name stop (t :: ts)) := by
  obtain ⟨_, _, ht, hop | ⟨a, ha⟩⟩ := exists_of_isSpan h
  · obtain ⟨rfl, rfl⟩ := List.cons.inj ht
    have hop : t.kind.isRangeOperator = true := hop
    obtain ⟨s, a, hss, -⟩ := (isSpan_sign_iff hv hop).1 h
    obtain rfl := eq_nil_of_map_eq_singleton hss
    refine .inr ⟨.misplaced (.noBound name t.kind (.finish stop)), ?_, rfl⟩
    simp only [content, hs, hop, reduceIte]
    exact map_eq_error_iff.2 rfl
  · obtain ⟨rfl, rfl⟩ := List.cons.inj ht
    exact hvalue a ha

theorem halts_dates (hs : Qualifier.Kind.ofName name ≠ .sort)
    (h : IsSpan Shape.date? .date .dates ((t :: (ts ++ u :: us)).map shape) c) :
    Halts stop (content name stop (t :: ts)) := by
  refine halts_span hs (fun s d h => (date?_kind s d h).1) h fun d hd => ?_
  have hk : t.kind = .date := kind_of_date? hd
  have hop : t.kind.isRangeOperator = false := (date?_kind _ _ hd).1
  simp only [content, hs, hop, reduceIte, Bool.false_eq_true]
  simp only [hk, (dateOf_eq_ok_iff hk).2 hd]
  exact (halts_afterBound (fun s d h => (date?_kind s d h).1) hd h).past (by intro; rfl) (by intro; rfl)

theorem halts_numbers (hs : Qualifier.Kind.ofName name ≠ .sort)
    (h : IsSpan Shape.number? .number .numbers ((t :: (ts ++ u :: us)).map shape) c) :
    Halts stop (content name stop (t :: ts)) := by
  refine halts_span hs (fun s n h => (number?_kind s n h).1) h fun n hn => ?_
  have hk : t.kind = .symbol := kind_of_number? hn
  have hop : t.kind.isRangeOperator = false := (number?_kind _ _ hn).1
  have hn' : number? t = some n := hn
  simp only [content, hs, hop, reduceIte, Bool.false_eq_true]
  simp only [hk, hn']
  exact (halts_afterBound (fun s n h => (number?_kind s n h).1) hn h).past (by intro; rfl) (by intro; rfl)

theorem halts_content (h : IsContent name ((ts ++ u :: us).map shape) c) : Halts stop (content name stop ts) := by
  cases ts with
  | nil => exact .inr ⟨_, rfl, rfl⟩
  | cons t ts =>
    generalize hss : (t :: ts ++ u :: us).map shape = ss at h
    cases h with
    | sortKeys hs hks =>
      subst hss
      simp only [content, hs, reduceIte]
      exact (halts_sortKeys hks).map Content.sortKeys (by intro; rfl) (by intro; rfl)
    | dates hs hd => exact halts_dates hs (hss ▸ hd)
    | numbers hs hn => exact halts_numbers hs (hss ▸ hn)
    | quoted hs hq =>
      subst hss
      obtain ⟨t', ws, q, hts, ht, -⟩ := isQuoted_map_iff.1 hq
      obtain ⟨rfl, -⟩ := List.cons.inj hts
      simp only [content, hs, ht, Token.Kind.isRangeOperator, reduceIte, Bool.false_eq_true]
      exact (halts_quoted hq).map Content.text (by intro; rfl) (by intro; rfl)
    | symbol hs hk hn => exact absurd (eq_nil_of_map_eq_singleton hss) (List.cons_ne_nil t ts)

/-- After the contents of a choice, the reader fails where it fails at further ones. -/
theorem qualified_eq_error_of_alternatives {left : Filter} {e : SyntaxError}
    (hl : IsChoice (shape t).name (us.map shape) left) (hvs : Avoids [.comma, .dots] (vs.map shape))
    (h : alternatives (shape t).name stop left vs = .error e) : qualified stop t (us ++ vs) = .error e := by
  generalize hss : us.map shape = ss at hl
  -- as where it succeeds: the last content of a choice is read after all the others
  induction hl generalizing us vs with
  | one hc =>
    subst hss
    exact qualified_eq_error_iff.2 (.inr ⟨_, vs, yields_of_isContent hc hvs, h⟩)
  | or _ hk hc ih =>
    obtain ⟨ws, us, rfl, rfl, hus⟩ := List.map_eq_append_iff.1 hss
    obtain ⟨u, us, rfl, rfl, rfl⟩ := List.map_eq_cons_iff.1 hus
    have hk : u.kind = .semicolon := hk
    rw [List.append_assoc]
    refine ih (by simp [hk]) (alternatives_eq_error_iff.2 ?_) rfl
    exact ⟨u, us ++ vs, rfl, hk, .inr ⟨_, vs, yields_of_isContent hc hvs, h⟩⟩

theorem halts_qualified {f : Filter} (h : IsChoice (shape t).name ((ts ++ u :: us).map shape) f) :
    Halts stop (qualified stop t ts) := by
  generalize hss : (ts ++ u :: us).map shape = ss at h
  induction h generalizing ts u us with
  | one hc =>
    rcases halts_content (hss ▸ hc) with ⟨c, hc⟩ | ⟨e, he, hfound⟩
    · exact .inl ⟨_, yields_qualified_iff.2 ⟨c, [], hc, leaves_alternatives_iff.2 (.inl ⟨rfl, rfl, avoids_nil _⟩)⟩⟩
    · exact .inr ⟨e, qualified_eq_error_iff.2 (.inl he), hfound⟩
  | @or _ _ _ left _ hl hk hc ih =>
    obtain ⟨xs, ys, hts, rfl, hys⟩ := List.map_eq_append_iff.1 hss
    obtain ⟨v, ys, rfl, rfl, rfl⟩ := List.map_eq_cons_iff.1 hys
    have hk : v.kind = .semicolon := hk
    rcases exists_of_append_cons hts with ⟨x, zs, rfl⟩ | ⟨zs, rfl, hzs⟩
    · exact ih rfl
    · cases zs with
      | nil => exact .inl ⟨_, yields_of_isChoice hl (avoids_nil _)⟩
      | cons z zs =>
        obtain ⟨rfl, rfl⟩ := List.cons.inj hzs
        have hz : Avoids [.comma, .dots] ((z :: zs).map shape) := avoids_cons.2 (by simp [hk])
        rcases halts_content hc with ⟨c, hc⟩ | ⟨e, he, hfound⟩
        · have hlast : Leaves (alternatives (shape t).name stop (or left (leaf (.named (shape t).name c))) []) _ [] :=
            leaves_alternatives_iff.2 (.inl ⟨rfl, rfl, avoids_nil _⟩)
          exact .inl ⟨_, yields_of_leaves hl hz (leaves_alternatives_iff.2 (.inr ⟨z, zs, c, [], rfl, hk, hc, hlast⟩))⟩
        · refine .inr ⟨e, qualified_eq_error_of_alternatives hl hz (alternatives_eq_error_iff.2 ?_), hfound⟩
          exact ⟨z, zs, rfl, hk, .inl he⟩

end Contents

/-! ## Expressions -/

/-- The parser does the task and leaves nothing, or it fails at the end of the text. -/
def HaltsAt (stop : Nat) (task : Task) (ts : List Token) : Prop :=
  (∃ f, Runs stop task ts f []) ∨ ∃ e, Fails stop task ts e ∧ e.found? = some (.finish stop)

section Operands

variable {stop : Nat} {t : Token} {ts : List Token}

theorem haltsAt_nil : HaltsAt stop .operand [] := by
  refine .inr ⟨.endedEarly stop, ?_, rfl⟩
  rw [Fails, operand.eq_def]

theorem haltsAt_quote (ht : t.kind = .quote) (h : Halts stop (quoted stop ts)) : HaltsAt stop .operand (t :: ts) := by
  rcases h with ⟨s, hs⟩ | ⟨e, he, hfound⟩
  · exact .inl ⟨_, (yields_quote_iff ht).2 ⟨s, hs, rfl⟩⟩
  · exact .inr ⟨e, (fails_quote_iff ht).2 he, hfound⟩

theorem haltsAt_qualifier (ht : t.kind = .qualifier) (h : Halts stop (qualified stop t ts)) :
    HaltsAt stop .operand (t :: ts) := by
  rcases h with ⟨f, hf⟩ | ⟨e, he, hfound⟩
  · exact .inl ⟨f, (yields_qualifier_iff ht).2 hf⟩
  · exact .inr ⟨e, (fails_qualifier_iff ht).2 he, hfound⟩

theorem haltsAt_not (ht : t.kind = .not) (h : HaltsAt stop (.expression 3) ts) : HaltsAt stop .operand (t :: ts) := by
  rcases h with ⟨f, hf⟩ | ⟨e, he, hfound⟩
  · exact .inl ⟨_, (yields_not_iff ht).2 ⟨f, hf, rfl⟩⟩
  · exact .inr ⟨e, (fails_not_iff ht).2 he, hfound⟩

/-- If the text ends between brackets, the one that closes is missing at the latest. -/
theorem haltsAt_brackets (ht : t.kind = .openBracket) (h : HaltsAt stop (.expression 0) ts) :
    HaltsAt stop .operand (t :: ts) := by
  rcases h with ⟨f, hf⟩ | ⟨e, he, hfound⟩
  · exact .inr ⟨_, (fails_brackets_iff ht).2 (.inr ⟨f, [], hf, by simp, rfl⟩), rfl⟩
  · exact .inr ⟨e, (fails_brackets_iff ht).2 (.inl he), hfound⟩

theorem haltsAt_chain_nil (level : Nat) (left : Filter) : HaltsAt stop (.chain level left) [] :=
  .inl ⟨left, (runs_stop_iff (bindsWithin_nil level)).2 ⟨rfl, rfl⟩⟩

end Operands

section Splits

variable {stop level : Nat} {task first : Task} {ts us vs : List Token} {join : Filter → Filter} {f : Filter}

theorem Splits.haltsAt_first (h : Splits stop task ts first us level join) (hfirst : HaltsAt stop first us) :
    HaltsAt stop task ts := by
  rcases hfirst with ⟨f, hf⟩ | ⟨e, he, hfound⟩
  · exact .inl ⟨join f, h.runs_iff.2 ⟨f, [], hf, (runs_stop_iff (bindsWithin_nil level)).2 ⟨rfl, rfl⟩⟩⟩
  · exact .inr ⟨e, h.fails_iff.2 (.inl he), hfound⟩

theorem Splits.haltsAt_chain (h : Splits stop task ts first us level join) (hf : Runs stop first us f vs)
    (hchain : HaltsAt stop (.chain level (join f)) vs) : HaltsAt stop task ts := by
  rcases hchain with ⟨g, hg⟩ | ⟨e, he, hfound⟩
  · exact .inl ⟨g, h.runs_iff.2 ⟨f, vs, hf, hg⟩⟩
  · exact .inr ⟨e, h.fails_iff.2 (.inr ⟨f, vs, hf, he⟩), hfound⟩

end Splits

/-- The task, done with the tokens `ps` that are there, gives the filter and leaves what is there of
the rest; or the text ends before the task does. -/
def DoneOrCut (task : Task) (ps : List Shape) (f : Filter) (rest : List Shape) : Prop :=
  (∃ vs, Begins vs rest ∧ Reads task ps f vs) ∨ ∀ stop (ts : List Token), ts.map shape = ps → HaltsAt stop task ts

section DoneOrCut

variable {task first : Task} {ps qs us rest : List Shape} {f g : Filter} {level : Nat} {join : Filter → Filter}

theorem doneOrCut_nil : DoneOrCut .operand [] f rest := by
  refine .inr fun stop ts hts => ?_
  rw [List.map_eq_nil_iff.1 hts]
  exact haltsAt_nil

theorem doneOrCut_chain_nil (level : Nat) (left : Filter) : DoneOrCut (.chain level left) [] f rest := by
  refine .inr fun stop ts hts => ?_
  rw [List.map_eq_nil_iff.1 hts]
  exact haltsAt_chain_nil level left

theorem doneOrCut_of_splits
    (hsplits : ∀ stop (ts : List Token), ts.map shape = ps → ∃ us, us.map shape = qs ∧
      Splits stop task ts first us level join)
    (hreads : ∀ {vs ws}, Reads first qs f vs → Reads (.chain level (join f)) vs g ws → Reads task ps g ws)
    (hfirst : DoneOrCut first qs f us) (hchain : ∀ vs, Begins vs us → DoneOrCut (.chain level (join f)) vs g rest) :
    DoneOrCut task ps g rest := by
  rcases hfirst with ⟨vs, hvs, hf⟩ | hcut
  · rcases hchain vs hvs with ⟨ws, hws, hg⟩ | hcut
    · exact .inl ⟨ws, hws, hreads hf hg⟩
    · refine .inr fun stop ts hts => ?_
      obtain ⟨us, hus, hs⟩ := hsplits stop ts hts
      obtain ⟨vs, hrun, hvs⟩ := runs_of_reads hf hus
      exact hs.haltsAt_chain hrun (hcut stop vs hvs)
  · refine .inr fun stop ts hts => ?_
    obtain ⟨us, hus, hs⟩ := hsplits stop ts hts
    exact hs.haltsAt_first (hcut stop us hus)

theorem Settled.of_begins (h : Settled rest) (hb : Begins ps rest) : Settled ps := by
  cases hb with
  | nil => exact avoids_nil _
  | cons => exact avoids_cons.2 (avoids_cons.1 h)
  | word hs => exact avoids_cons.2 (by simp [hs])

theorem BindsWithin.of_begins (h : BindsWithin level rest) (hb : Begins ps rest) : BindsWithin level ps := by
  cases hb with
  | nil => exact bindsWithin_nil level
  | cons => exact bindsWithin_cons.2 (bindsWithin_cons.1 h)
  | word hs hq =>
    rw [bindsWithin_cons, hq] at h
    rw [bindsWithin_cons, hs]
    exact h

/-- The shapes behind a token are those of some tokens. -/
theorem exists_tokens (ts : List Token) (s : Shape) (vs : List Shape) :
    ∃ u us, (ts ++ u :: us).map shape = ts.map shape ++ s :: vs :=
  ⟨⟨s.kind, s.text, 0⟩, vs.map fun v => ⟨v.kind, v.text, 0⟩, by simp [Function.comp_def, shape]⟩

/-! ### One rule at a time -/

variable {s : Shape} {ss : List Shape}

theorem doneOrCut_quoted {text : String} (hq : IsQuoted us text) (hb : Begins ps (us ++ rest)) :
    DoneOrCut .operand ps (leaf (.keyword text)) rest := by
  have hkind : ∀ s ∈ us, s.kind ≠ .qualifier := fun s hs hk => absurd (hk ▸ hq.kind_mem s hs) (by decide)
  rcases hb.of_append hkind with ⟨s, vs, rfl⟩ | ⟨vs, rfl, hvs⟩
  · refine .inr fun stop ts hts => ?_
    subst hts
    obtain ⟨u, us, hus⟩ := exists_tokens ts s vs
    rw [← hus] at hq
    cases ts with
    | nil => exact haltsAt_nil
    | cons t ts =>
      obtain ⟨t', ws, q, hcons, ht, -⟩ := isQuoted_map_iff.1 hq
      obtain ⟨rfl, -⟩ := List.cons.inj hcons
      exact haltsAt_quote ht (halts_quoted hq)
  · exact .inl ⟨vs, hvs, .quoted hq⟩

/-- A qualifier ends in one of its contents or behind them, or before its colon, where it is a term. -/
theorem doneOrCut_qualifier (hk : s.kind = .qualifier) (hc : IsChoice s.name us f) (hs : Settled rest)
    (hb : Begins ps (s :: (us ++ rest))) : DoneOrCut .operand ps f rest := by
  cases hb with
  | nil => exact doneOrCut_nil
  | word hp =>
    refine .inr fun stop ts hts => ?_
    obtain ⟨t, rfl, rfl⟩ := List.map_eq_singleton_iff.1 hts
    exact .inl ⟨_, (yields_symbol_iff hp).2 ⟨rfl, rfl⟩⟩
  | cons hb =>
    have hkind : ∀ s ∈ us, s.kind ≠ .qualifier := fun s hs hk => absurd (hk ▸ hc.kind_mem s hs) (by decide)
    rcases hb.of_append hkind with ⟨u, vs, rfl⟩ | ⟨vs, rfl, hvs⟩
    · refine .inr fun stop ts hts => ?_
      obtain ⟨t, ts, rfl, rfl, rfl⟩ := List.map_eq_cons_iff.1 hts
      obtain ⟨u, us, hus⟩ := exists_tokens ts u vs
      rw [← hus] at hc
      exact haltsAt_qualifier hk (halts_qualified hc)
    · exact .inl ⟨vs, hvs, .qualifier hk hc (hs.of_begins hvs)⟩

theorem doneOrCut_not (hk : s.kind = .not) (hinner : ∀ qs, Begins qs ss → DoneOrCut (.expression 3) qs f rest)
    (hb : Begins ps (s :: ss)) : DoneOrCut .operand ps (.not f) rest := by
  rcases hb.of_cons (by simp [hk]) with rfl | ⟨qs, rfl, hqs⟩
  · exact doneOrCut_nil
  · rcases hinner qs hqs with ⟨vs, hvs, hf⟩ | hcut
    · exact .inl ⟨vs, hvs, .not hk hf⟩
    · refine .inr fun stop ts hts => ?_
      obtain ⟨t, ts, rfl, rfl, rfl⟩ := List.map_eq_cons_iff.1 hts
      exact haltsAt_not hk (hcut stop ts rfl)

/-- Brackets whose content is done are done if the one that closes them is there. -/
theorem doneOrCut_brackets {closing : Shape} (ho : s.kind = .openBracket) (hclose : closing.kind = .closeBracket)
    (hinner : ∀ qs, Begins qs ss → DoneOrCut (.expression 0) qs f (closing :: rest)) (hb : Begins ps (s :: ss)) :
    DoneOrCut .operand ps f rest := by
  rcases hb.of_cons (by simp [ho]) with rfl | ⟨qs, rfl, hqs⟩
  · exact doneOrCut_nil
  · rcases hinner qs hqs with ⟨vs, hvs, hf⟩ | hcut
    · rcases hvs.of_cons (by simp [hclose]) with rfl | ⟨ws, rfl, hws⟩
      · refine .inr fun stop ts hts => ?_
        obtain ⟨t, ts, rfl, rfl, rfl⟩ := List.map_eq_cons_iff.1 hts
        obtain ⟨us, hrun, hus⟩ := runs_of_reads hf rfl
        rw [List.map_eq_nil_iff.1 hus] at hrun
        exact haltsAt_brackets ho (.inl ⟨_, hrun⟩)
      · exact .inl ⟨ws, hws, .brackets ho hf hclose⟩
    · refine .inr fun stop ts hts => ?_
      obtain ⟨t, ts, rfl, rfl, rfl⟩ := List.map_eq_cons_iff.1 hts
      exact haltsAt_brackets ho (hcut stop ts rfl)

/-- A connective that is written, with its right operand and what follows that. -/
theorem doneOrCut_connective {left : Filter} (hk : s.kind ≠ .qualifier)
    (hsplits : ∀ stop t (ts : List Token), shape t = s → Splits stop (.chain level left) (t :: ts) first ts level join)
    (hreads : ∀ {qs vs ws}, Reads first qs f vs → Reads (.chain level (join f)) vs g ws →
      Reads (.chain level left) (s :: qs) g ws)
    (hfirst : ∀ qs, Begins qs ss → DoneOrCut first qs f us)
    (hchain : ∀ vs, Begins vs us → DoneOrCut (.chain level (join f)) vs g rest) (hb : Begins ps (s :: ss)) :
    DoneOrCut (.chain level left) ps g rest := by
  rcases hb.of_cons hk with rfl | ⟨qs, rfl, hqs⟩
  · exact doneOrCut_chain_nil _ _
  · refine doneOrCut_of_splits (fun stop ts hts => ?_) hreads (hfirst qs hqs) hchain
    obtain ⟨t, ts, rfl, ht, rfl⟩ := List.map_eq_cons_iff.1 hts
    exact ⟨ts, rfl, hsplits stop t ts ht⟩

/-- A conjunction whose sign is left out. A symbol goes on with the chain as the qualifier does that it becomes. -/
theorem doneOrCut_juxtaposed {left : Filter} (hand : s.kind ≠ .and) (hor : s.kind ≠ .or) (hl : level < s.kind.power)
    (hfirst : DoneOrCut (.expression 2) ps f us)
    (hchain : ∀ vs, Begins vs us → DoneOrCut (.chain level (.and left f)) vs g rest) (hb : Begins ps (s :: ss)) :
    DoneOrCut (.chain level left) ps g rest := by
  cases ps with
  | nil => exact doneOrCut_chain_nil _ _
  | cons p ps =>
    obtain ⟨hand, hor, hl⟩ : p.kind ≠ .and ∧ p.kind ≠ .or ∧ level < p.kind.power := by
      rcases hb.head with rfl | ⟨hp, hs⟩
      · exact ⟨hand, hor, hl⟩
      · rw [hs] at hl
        rw [hp]
        exact ⟨by decide, by decide, hl⟩
    refine doneOrCut_of_splits (fun stop ts hts => ?_) (.juxtaposed hand hor hl) hfirst hchain
    obtain ⟨t, ts, rfl, rfl, rfl⟩ := List.map_eq_cons_iff.1 hts
    exact ⟨t :: ts, rfl, splits_juxtaposed hand hor hl⟩

/-- Tokens of which the last are not there are read as far as they go. -/
theorem Reads.doneOrCut {ss : List Shape} (h : Reads task ss f rest) (hb : Begins ps ss) :
    DoneOrCut task ps f rest := by
  induction h generalizing ps with
  | symbol hk =>
    rcases hb.of_cons (by simp [hk]) with rfl | ⟨qs, rfl, hqs⟩
    · exact doneOrCut_nil
    · exact .inl ⟨qs, hqs, .symbol hk⟩
  | quoted hq => exact doneOrCut_quoted hq hb
  | qualifier hk hc hs => exact doneOrCut_qualifier hk hc hs hb
  | not hk _ ih => exact doneOrCut_not hk (fun _ hqs => ih hqs) hb
  | brackets ho _ hc ih => exact doneOrCut_brackets ho hc (fun _ hqs => ih hqs) hb
  | expression _ _ ih1 ih2 =>
    exact doneOrCut_of_splits (fun stop ts hts => ⟨ts, hts, splits_expression⟩) .expression (ih1 hb)
      fun vs hvs => ih2 hvs
  | stop hbinds => exact .inl ⟨ps, hb, .stop (hbinds.of_begins hb)⟩
  | and hk hl _ _ ih1 ih2 =>
    exact doneOrCut_connective (by simp [hk]) (fun _ _ _ ht => splits_and ((congrArg Shape.kind ht).trans hk) hl)
      (.and hk hl) (fun _ hqs => ih1 hqs) (fun _ hvs => ih2 hvs) hb
  | or hk hl _ _ ih1 ih2 =>
    exact doneOrCut_connective (by simp [hk]) (fun _ _ _ ht => splits_or ((congrArg Shape.kind ht).trans hk) hl)
      (.or hk hl) (fun _ hqs => ih1 hqs) (fun _ hvs => ih2 hvs) hb
  | juxtaposed hand hor hl _ _ ih1 ih2 =>
    exact doneOrCut_juxtaposed hand hor hl (ih1 hb) (fun _ hvs => ih2 hvs) hb

end DoneOrCut

end IssueQuery.Filter
