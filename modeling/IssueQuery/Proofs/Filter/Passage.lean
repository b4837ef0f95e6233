/-
What comes of a call on the walk: the routine comes back behind tokens that stood next, and on the tokens of a
text with what the reader of its name gives. Shown here of all that stands inside a qualifier, loop by loop,
by induction on the tokens ahead.
-/
import IssueQuery.Proofs.Filter.Walk
import IssueQuery.Proofs.Text.Lines

namespace IssueQuery

open Token (Shape shape)
open Qualifier (Content IsWord)

/-! ## Words a blank apart -/

namespace Text

theorem trimEnd_append_word {w cs : List Char} (hw : w ≠ []) (h : ∀ c ∈ w, isBlank c = false) :
    trimEnd (cs ++ w) = cs ++ w := by
  obtain ⟨us, c, rfl⟩ := (List.eq_nil_or_concat' w).resolve_left hw
  have hc : isBlank c = false := h c (by simp)
  rw [trimEnd, ← List.append_assoc, List.reverse_append, List.reverse_singleton, List.singleton_append,
    List.dropWhile_cons_of_neg (by simp [hc])]
  simp

/-- There are no blanks around a row of words. -/
theorem trim_intercalate {separator : List Char} {ws : List (List Char)} (hne : ∀ w ∈ ws, w ≠ [])
    (h : ∀ w ∈ ws, ∀ c ∈ w, isBlank c = false) :
    trim (separator.intercalate ws) = separator.intercalate ws := by
  have hstart : trimStart (separator.intercalate ws) = separator.intercalate ws := by
    match ws with
    | [] => rfl
    | [] :: _ => exact absurd rfl (hne [] (List.mem_cons_self ..))
    | (c :: w) :: ws =>
      have hc : isBlank c = false := h _ (List.mem_cons_self ..) c (List.mem_cons_self ..)
      cases ws with
      | nil => simpa using trimStart_cons hc
      | cons v ws => simpa [List.intercalate_cons_cons] using trimStart_cons hc
  rw [trim, hstart]
  rcases List.eq_nil_or_concat' ws with rfl | ⟨vs, w, rfl⟩
  · rfl
  have hw (cs : List Char) : trimEnd (cs ++ w) = cs ++ w := trimEnd_append_word (hne w (by simp)) (h w (by simp))
  rcases List.eq_nil_or_concat' vs with rfl | ⟨us, v, rfl⟩
  · simpa using hw []
  · rw [intercalate_concat (by simp)]
    exact hw _

end Text

theorem trim_words {ws : List String} (h : ∀ w ∈ ws, IsWord w) :
    String.ofList (Text.trim (" ".intercalate ws).toList) = " ".intercalate ws := by
  have hword {w : String} (hw : IsWord w) : w.toList ≠ [] ∧ ∀ c ∈ w.toList, Text.isBlank c = false := by
    obtain ⟨kind, hk, hmatch⟩ : ∃ kind, kind ≠ .qualifier ∧
        Token.firstMatch? w.toList = some (kind, w.toList.length) := by
      rcases hw with hw | hw
      · exact ⟨.symbol, by decide, hw⟩
      · exact ⟨.date, by decide, hw⟩
    refine ⟨fun hnil => ?_, Token.isBlank_eq_false_of_firstMatch? hmatch hk⟩
    have := Token.pos_of_firstMatch? hmatch
    simp [hnil] at this
  rw [String.toList_intercalate, Text.trim_intercalate, ← String.toList_intercalate, String.ofList_toList]
  · simpa using fun w hw => (hword (h w hw)).1
  · simpa using fun w hw => (hword (h w hw)).2

/-- The lexer would cut each of the tokens out by itself. -/
def Token.Lexed.IsGenuine (l : Token.Lexed) : Prop := ∀ t ∈ l.tokens, (shape t).Genuine

theorem Token.isGenuine_of_lex {s : String} {l : Token.Lexed} (hl : Token.lex s = .ok l) : l.IsGenuine :=
  fun t ht => (Token.lexes_of_lex hl).genuine (shape t) (List.mem_map_of_mem ht)

namespace Filter

/-- The names in a genuine row of tokens go with all that is read for them. -/
theorem takesContent_of_isGenuine {l : Token.Lexed} (hl : l.IsGenuine) {t : Token} (ht : t ∈ l.tokens)
    (hk : t.kind = .qualifier) : TakesContent (shape t).name :=
  takesContent_of_isName (Qualifier.isName_of_firstMatch? hk (hl t ht))

namespace Walk

/-! ## What stands ahead -/

section Ahead

variable {stop : Nat} {ts : List Token} {kind : Token.Kind}

theorem kind?_ofTokens_eq_some_iff :
    (Lexeme.ofTokens stop ts).kind? = some kind ↔ ∃ t us, ts = t :: us ∧ t.kind = kind := by
  cases ts <;> simp [Lexeme.ofTokens, Lexeme.kind?]

theorem avoids_of_kind?_ofTokens (h : (Lexeme.ofTokens stop ts).kind? ≠ some kind) :
    Avoids [kind] (ts.map shape) := by
  cases ts with
  | nil => exact avoids_nil _
  | cons t ts => exact avoids_cons.2 (by simpa [Lexeme.ofTokens, Lexeme.kind?] using h)

end Ahead

/-! ## Runs that come back -/

/-- Called at `c`, the routine comes back. It has taken the tokens that it moved over, and a value leaves
fewer than `bound` tokens. Provided `G`, the value and the tokens left are such as `Y` tells, and a fault is a
fault of syntax such as `F` tells. -/
inductive Returns {α : Type} (l : Token.Lexed) (G : Prop) (m : Routine α) (c : Cursor) (bound : Nat)
    (Y : α → List Token → Prop) (F : SyntaxError → Prop) : Prop
  | value {a : α} {us rest : List Token} : l.tokens.drop c.position = us ++ rest →
    resultAt m c = some (.ok a, c.after us) → rest.length < bound → (G → Y a rest) → Returns l G m c bound Y F
  | fault {e : FilterError} {us rest : List Token} : l.tokens.drop c.position = us ++ rest →
    resultAt m c = some (.error e, c.after us) → (G → ∃ e', e = .unreadable e' ∧ F e') →
    Returns l G m c bound Y F

section Rules

variable {l : Token.Lexed} {G : Prop} {c : Cursor} {α β : Type} {n n' : Nat} {t : Token} {ts us rest : List Token}
  {m m' : Routine α} {k : α → Routine β} {Y Y' : α → List Token → Prop} {Z : β → List Token → Prop}
  {F F' : SyntaxError → Prop}

theorem drop_after (h : l.tokens.drop c.position = us ++ rest) : l.tokens.drop (c.after us).position = rest := by
  rw [Cursor.after, ← List.drop_drop, h, List.drop_left]

theorem drop_after_cons (h : l.tokens.drop c.position = t :: ts) : l.tokens.drop (c.after [t]).position = ts := by
  rw [← List.singleton_append] at h
  exact drop_after h

/-- What comes of a call further on comes of one that has gone there. -/
theorem Returns.of_after (h : Returns l G m (c.after us) n Y F) (hc : l.tokens.drop c.position = us ++ rest)
    (hm : resultAt m' c = resultAt m (c.after us)) : Returns l G m' c n Y F := by
  cases h with
  | value hc' hr hn hY =>
    rw [drop_after hc] at hc'
    rw [after_after] at hr
    exact .value (by rw [hc, hc', List.append_assoc]) (hm.trans hr) hn hY
  | fault hc' hr hF =>
    rw [drop_after hc] at hc'
    rw [after_after] at hr
    exact .fault (by rw [hc, hc', List.append_assoc]) (hm.trans hr) hF

theorem Returns.congr (h : Returns l G m c n Y F) (hm : resultAt m' c = resultAt m c) : Returns l G m' c n Y F := by
  rw [← after_nil c] at h
  exact h.of_after (List.nil_append _).symm (by rw [after_nil, hm])

theorem Returns.imp (h : Returns l G m c n Y F) (hn : n ≤ n') (hY : G → ∀ a rest, Y a rest → Y' a rest)
    (hF : G → ∀ e, F e → F' e) : Returns l G m c n' Y' F' := by
  cases h with
  | value hc hr hlt h => exact .value hc hr (hlt.trans_le hn) fun hG => hY hG _ _ (h hG)
  | fault hc hr h =>
    refine .fault hc hr fun hG => ?_
    obtain ⟨e, he, h⟩ := h hG
    exact ⟨e, he, hF hG e h⟩

theorem returns_pure {a : α} (hc : l.tokens.drop c.position = ts) (hn : ts.length < n) (hY : G → Y a ts) :
    Returns l G (pure a) c n Y F :=
  .value (hc.trans (List.nil_append ts).symm) (by rw [after_nil]; rfl) hn hY

theorem returns_throw {e : SyntaxError} (hF : G → F e) : Returns l G (throw (.unreadable e)) c n Y F :=
  .fault (List.nil_append _).symm (by rw [after_nil]; rfl) fun hG => ⟨e, rfl, hF hG⟩

/-- Of two routines, the second is called where the first has left the cursor. -/
theorem Returns.bind (h : Returns l G m c n Y F) (hF : G → ∀ e, F e → F' e)
    (hk : ∀ a us rest, l.tokens.drop c.position = us ++ rest → rest.length < n → (G → Y a rest) →
      Returns l G (k a) (c.after us) n' Z F') : Returns l G (m >>= k) c n' Z F' := by
  cases h with
  | @value a us rest hc hr hlt hY =>
    exact (hk a us rest hc hlt hY).of_after hc (by rw [resultAt_bind, hr]; rfl)
  | fault hc hr h =>
    refine .fault hc (by rw [resultAt_bind, hr]; rfl) fun hG => ?_
    obtain ⟨e, he, h⟩ := h hG
    exact ⟨e, he, hF hG e h⟩

theorem returns_peek {k : Lexeme → Routine β} (hc : l.tokens.drop c.position = ts)
    (h : Returns l G (k (.ofTokens l.stop ts)) c n Z F) : Returns l G (peek l >>= k) c n Z F :=
  h.congr (by rw [resultAt_peek_bind, hc])

theorem returns_advance {k : Lexeme → Routine β} (hc : l.tokens.drop c.position = t :: ts)
    (h : Returns l G (k (.token t)) (c.after [t]) n Z F) : Returns l G (advance l >>= k) c n Z F :=
  h.of_after hc (by rw [resultAt_advance_bind, hc])

theorem returns_advance_end {k : Lexeme → Routine β} (hc : l.tokens.drop c.position = [])
    (h : Returns l G (k (.finish l.stop)) c n Z F) : Returns l G (advance l >>= k) c n Z F :=
  h.congr (by rw [resultAt_advance_bind, hc])

theorem returns_denoted {x : Except SyntaxError α} (hF : G → ∀ e, x = .error e → F e)
    (hk : ∀ a, x = .ok a → Returns l G (k a) c n Z F) : Returns l G (denoted x >>= k) c n Z F := by
  cases x with
  | error e => exact (returns_throw fun hG => hF hG e rfl).congr rfl
  | ok a => exact hk a rfl

theorem returns_misplaced {problem : Misplacement} (hF : G → F (.misplaced problem)) :
    Returns l G (misplaced problem) c n Y F := returns_throw hF

end Rules

/-! ## Quoted phrases and sort keys -/

section Contents

variable {l : Token.Lexed} {G : Prop} {c : Cursor} {ts : List Token} {name : String}

theorem returns_quotedWords (hc : l.tokens.drop c.position = ts) (words : List String) :
    Returns l G (quotedWords l words) c ts.length
      (fun all rest => ∃ ws, Yields (Filter.quotedWords l.stop ts) ws rest ∧ all = words ++ ws)
      (Filter.quotedWords l.stop ts = .error ·) := by
  induction ts generalizing c words with
  | nil =>
    rw [quotedWords]
    exact returns_advance_end hc (returns_misplaced fun _ => rfl)
  | cons t ts ih =>
    have hword (hk : t.kind = .symbol ∨ t.kind = .date) :
        Returns l G (quotedWords l (words ++ [t.text])) (c.after [t]) (t :: ts).length
          (fun all rest => ∃ ws, Yields (Filter.quotedWords l.stop (t :: ts)) ws rest ∧ all = words ++ ws)
          (Filter.quotedWords l.stop (t :: ts) = .error ·) := by
      have hread : Filter.quotedWords l.stop (t :: ts) = (do
          let ws ← Filter.quotedWords l.stop ts
          return (ws.map (t.text :: ·)).past t) := by
        rw [Filter.quotedWords]
        rcases hk with hk | hk <;> simp only [hk]
      rw [hread]
      refine (ih (drop_after_cons hc) _).imp (Nat.le_succ _) (fun _ all rest h => ?_) fun _ e h => ?_
      · obtain ⟨ws, hws, rfl⟩ := h
        refine ⟨t.text :: ws, ?_, by simp⟩
        exact (yields_map_iff (t.text :: ·) (by intro; rfl) (by intro; rfl)).2 ⟨ws, hws, rfl⟩
      · exact map_eq_error_iff.2 h
    rw [quotedWords]
    refine returns_advance hc ?_
    dsimp only
    generalize hk : t.kind = kind at hword
    cases kind with
    | symbol => exact hword (.inl rfl)
    | date => exact hword (.inr rfl)
    | quote =>
      refine returns_pure (drop_after_cons hc) (Nat.lt_succ_self _) fun _ => ⟨[], ?_, by simp⟩
      rw [Filter.quotedWords]
      simp only [hk]
      exact yields_pure.2 ⟨rfl, rfl⟩
    | _ =>
      refine returns_misplaced fun _ => ?_
      rw [Filter.quotedWords]
      simp only [hk]

theorem returns_quoted (hG : G → l.IsGenuine) (hc : l.tokens.drop c.position = ts) :
    Returns l G (quoted l) c ts.length (Yields (Filter.quoted l.stop ts)) (Filter.quoted l.stop ts = .error ·) := by
  refine (returns_quotedWords hc []).bind (fun _ _ h => map_eq_error_iff.2 h) fun words us rest hus hlt h => ?_
  refine returns_pure (drop_after hus) hlt fun g => ?_
  obtain ⟨_, hws, rfl⟩ := h g
  obtain ⟨ws, q, rfl, hk, -, rfl⟩ := yields_quotedWords_iff.1 hws
  have hwords : ∀ w ∈ ws.map Token.text, IsWord w := by
    rintro _ hw
    obtain ⟨t, ht, rfl⟩ := List.mem_map.1 hw
    have hgenuine : (shape t).Genuine :=
      hG g t (List.mem_of_mem_drop (hc ▸ List.mem_append_left _ ht : t ∈ l.tokens.drop c.position))
    rw [Token.Shape.Genuine, shape_kind] at hgenuine
    rcases hk t ht with hk | hk <;> rw [hk] at hgenuine
    · exact .inl hgenuine
    · exact .inr hgenuine
  rw [trim_words hwords]
  exact (yields_map_iff (" ".intercalate ·) (by intro; rfl) (by intro; rfl)).2 ⟨_, hws, rfl⟩

theorem returns_plainKey {reversed : Bool} {n : Nat} {Y : SortKey → List Token → Prop} {F : SyntaxError → Prop}
    (hc : l.tokens.drop c.position = ts)
    (hend : ts = [] → F (.misplaced (.noContent name (.finish l.stop))))
    (hbad : ∀ t us, ts = t :: us → t.kind ≠ .symbol → F (.misplaced (.badContent name (.token t))))
    (hkey : ∀ t us, ts = t :: us → t.kind = .symbol → us.length < n ∧ Y ⟨t.text, reversed⟩ us) :
    Returns l G (plainKey l name reversed) c n Y F := by
  rw [plainKey]
  cases ts with
  | nil => exact returns_advance_end hc (returns_misplaced fun _ => hend rfl)
  | cons t ts =>
    refine returns_advance hc ?_
    dsimp only
    by_cases ht : t.kind = .symbol
    · obtain ⟨hlt, hY⟩ := hkey t ts rfl ht
      rw [if_pos ht]
      exact returns_pure (drop_after_cons hc) hlt fun _ => hY
    · rw [if_neg ht]
      exact returns_misplaced fun _ => hbad t ts rfl ht

theorem returns_sortKey (hc : l.tokens.drop c.position = ts) : Returns l G (sortKey l name) c ts.length
    (Yields (Filter.sortKey name l.stop ts)) (Filter.sortKey name l.stop ts = .error ·) := by
  rw [sortKey]
  refine returns_peek hc ?_
  by_cases hnot : (Lexeme.ofTokens l.stop ts).kind? = some .not
  · rw [if_pos hnot]
    obtain ⟨t, ts, rfl, ht⟩ := kind?_ofTokens_eq_some_iff.1 hnot
    refine returns_advance hc (returns_plainKey (drop_after_cons hc) ?_ ?_ ?_)
    · rintro rfl
      simp only [Filter.sortKey, ht]
    · rintro key us rfl hkey
      simp only [Filter.sortKey, ht, hkey, reduceIte]
    · rintro key us rfl hkey
      refine ⟨by simp, ?_⟩
      simp only [Filter.sortKey, ht, hkey, reduceIte]
      exact yields_pure.2 ⟨rfl, rfl⟩
  · rw [if_neg hnot]
    refine returns_plainKey hc ?_ ?_ ?_
    · rintro rfl
      rfl
    · rintro t us rfl ht
      have hnot : t.kind ≠ .not := by simpa [Lexeme.ofTokens, Lexeme.kind?] using hnot
      rw [Filter.sortKey]
      generalize t.kind = kind at hnot ht
      cases kind with
      | not => exact absurd rfl hnot
      | symbol => exact absurd rfl ht
      | _ => rfl
    · rintro t us rfl ht
      refine ⟨Nat.lt_succ_self _, ?_⟩
      simp only [Filter.sortKey, ht]
      exact yields_pure.2 ⟨rfl, rfl⟩

theorem returns_sortKeys (hc : l.tokens.drop c.position = ts) (keys : List SortKey) :
    Returns l G (sortKeys l name keys) c ts.length
      (fun all rest => ∃ ks, Yields (Filter.sortKeys name l.stop ts) ks rest ∧ all = keys ++ ks)
      (Filter.sortKeys name l.stop ts = .error ·) := by
  induction hn : ts.length using Nat.strong_induction_on generalizing c ts keys with
  | _ n ih =>
    subst hn
    rw [sortKeys]
    refine (returns_sortKey hc).bind (fun _ _ h => sortKeys_eq_error_iff.2 (.inl h)) fun key us rest hus hlt h => ?_
    have hrest := drop_after hus
    refine returns_peek hrest ?_
    by_cases hcomma : (Lexeme.ofTokens l.stop rest).kind? = some .comma
    · rw [if_pos hcomma]
      obtain ⟨t, rest, rfl, ht⟩ := kind?_ofTokens_eq_some_iff.1 hcomma
      have hlt' : rest.length < ts.length := (Nat.lt_succ_self _).trans hlt
      refine returns_advance hrest ?_
      refine (ih _ hlt' (drop_after_cons hrest) _ rfl).imp hlt'.le (fun g all vs hall => ?_) fun g e he => ?_
      · obtain ⟨ks, hks, rfl⟩ := hall
        have hkeys : Yields (Filter.sortKeys name l.stop ts) (key :: ks) vs :=
          yields_sortKeys_iff.2 ⟨key, t :: rest, h g, .inr ⟨t, rest, ks, rfl, ht, hks, rfl⟩⟩
        exact ⟨key :: ks, hkeys, by simp⟩
      · exact sortKeys_eq_error_iff.2 (.inr ⟨key, t, rest, h g, ht, he⟩)
    · rw [if_neg hcomma]
      refine returns_pure hrest hlt fun g => ⟨[key], yields_sortKeys_iff.2 ⟨key, rest, h g, .inl ?_⟩, rfl⟩
      exact ⟨rfl, rfl, avoids_of_kind?_ofTokens hcomma⟩

/-! ## Content of qualifiers -/

theorem returns_afterBound {α : Type} {bound : Token → Except SyntaxError α} {one : α → Content}
    {range : Range α → Content} {start : α} (hc : l.tokens.drop c.position = ts) :
    Returns l G (afterBound l name bound one range start) c (ts.length + 1)
      (Leaves (Filter.afterBound name l.stop bound one range start ts))
      (Filter.afterBound name l.stop bound one range start ts = .error ·) := by
  rw [afterBound]
  refine returns_peek hc ?_
  cases ts with
  | nil => exact returns_pure hc (Nat.lt_succ_self _) fun _ => leaves_pure.2 ⟨rfl, rfl⟩
  | cons d ts =>
    have hdrop := drop_after_cons hc
    simp only [Lexeme.ofTokens, Lexeme.kind?, Option.some.injEq]
    by_cases hd : d.kind = .dots
    · rw [if_pos hd]
      refine returns_advance hc ?_
      cases ts with
      | nil =>
        refine returns_advance_end hdrop (returns_misplaced fun _ => ?_)
        simp only [Filter.afterBound, hd, reduceIte]
      | cons t ts =>
        refine returns_advance hdrop ?_
        have hdrop := drop_after_cons hdrop
        dsimp only
        by_cases ht : t.kind = .star
        · rw [if_pos ht]
          refine returns_pure hdrop (by simp; omega) fun _ => ?_
          simp only [Filter.afterBound, hd, ht, reduceIte]
          exact leaves_pure.2 ⟨rfl, rfl⟩
        · rw [if_neg ht]
          refine returns_denoted (fun _ e he => ?_) fun a ha => returns_pure hdrop (by simp; omega) fun _ => ?_
          · simp only [Filter.afterBound, hd, ht, reduceIte]
            exact map_eq_error_iff.2 he
          · simp only [Filter.afterBound, hd, ht, reduceIte]
            exact leaves_bind.2 ⟨a, ha, leaves_pure.2 ⟨rfl, rfl⟩⟩
    · rw [if_neg hd]
      refine returns_pure hc (Nat.lt_succ_self _) fun _ => ?_
      simp only [Filter.afterBound, hd, reduceIte]
      exact leaves_pure.2 ⟨rfl, rfl⟩

theorem returns_halfOpen {sign : Token.Kind} (hc : l.tokens.drop c.position = ts) :
    Returns l G (halfOpen l name sign) c ts.length (Yields (Filter.halfOpen name l.stop sign ts))
      (Filter.halfOpen name l.stop sign ts = .error ·) := by
  rw [halfOpen]
  cases ts with
  | nil => exact returns_advance_end hc (returns_misplaced fun _ => rfl)
  | cons t ts =>
    have hdrop := drop_after_cons hc
    refine returns_advance hc ?_
    dsimp only
    by_cases ht : t.kind = .date
    · rw [if_pos ht]
      refine returns_denoted (fun _ e he => ?_) fun d hd => returns_pure hdrop (Nat.lt_succ_self _) fun _ => ?_
      · simp only [Filter.halfOpen, ht, reduceIte]
        exact map_eq_error_iff.2 he
      · exact yields_halfOpen_iff.2 ⟨t, rfl, .inl ⟨d, (dateOf_eq_ok_iff ht).1 hd, rfl⟩⟩
    · rw [if_neg ht]
      refine returns_denoted (fun _ e he => ?_) fun n hn => returns_pure hdrop (Nat.lt_succ_self _) fun _ => ?_
      · simp only [Filter.halfOpen, ht, reduceIte]
        exact map_eq_error_iff.2 he
      · exact yields_halfOpen_iff.2 ⟨t, rfl, .inr ⟨n, numberBound_eq_ok_iff.1 hn, rfl⟩⟩

theorem returns_content (hG : G → l.IsGenuine) (hc : l.tokens.drop c.position = ts) :
    Returns l G (content l name) c ts.length (Yields (Filter.content name l.stop ts))
      (Filter.content name l.stop ts = .error ·) := by
  rw [content]
  refine returns_peek hc ?_
  cases ts with
  | nil => exact returns_misplaced fun _ => rfl
  | cons t ts =>
    have hdrop := drop_after_cons hc
    have hle : ts.length ≤ (t :: ts).length := Nat.le_succ _
    simp only [Lexeme.ofTokens, Filter.content]
    -- sort keys, a half-open range, or what the kind of the first token tells
    by_cases hs : Qualifier.Kind.ofName name = .sort
    · simp only [if_pos hs]
      refine (returns_sortKeys hc []).bind (fun _ _ h => map_eq_error_iff.2 h) fun keys us rest hus hlt h => ?_
      refine returns_pure (drop_after hus) hlt fun g => ?_
      obtain ⟨_, hks, rfl⟩ := h g
      exact (yields_map_iff Content.sortKeys (by intro; rfl) (by intro; rfl)).2 ⟨_, hks, rfl⟩
    simp only [if_neg hs]
    by_cases hop : t.kind.isRangeOperator
    · simp only [if_pos hop]
      refine returns_advance hc ((returns_halfOpen hdrop).imp hle (fun _ r rest h => ?_) fun _ e h => ?_)
      · exact (yields_map_iff id (by intro; rfl) (by intro; rfl)).2 ⟨r, h, rfl⟩
      · exact map_eq_error_iff.2 h
    simp only [if_neg hop]
    generalize hk : t.kind = kind
    cases kind with
    | date =>
      refine returns_advance hc (returns_denoted (fun _ e he => ?_) fun d hd => ?_)
      · exact bind_eq_error_iff.2 (.inl he)
      · refine (returns_afterBound hdrop).imp (Nat.le_refl _) (fun _ r rest h => ?_) fun _ e h => ?_
        · exact yields_bind.2 ⟨d, hd, (yields_remainder_iff (by intro; rfl) (by intro; rfl)).2 h⟩
        · exact bind_eq_error_iff.2 (.inr ⟨d, hd, map_eq_error_iff.2 h⟩)
    | symbol =>
      refine returns_advance hc ?_
      cases number? t with
      | none => exact returns_pure hdrop (Nat.lt_succ_self _) fun _ => yields_pure.2 ⟨rfl, rfl⟩
      | some n =>
        refine (returns_afterBound hdrop).imp (Nat.le_refl _) (fun _ r rest h => ?_) fun _ e h => ?_
        · exact (yields_remainder_iff (by intro; rfl) (by intro; rfl)).2 h
        · exact map_eq_error_iff.2 h
    | quote =>
      refine returns_advance hc ((returns_quoted hG hdrop).bind (fun _ _ h => map_eq_error_iff.2 h) ?_)
      intro phrase us rest hus hlt h
      refine returns_pure (drop_after hus) (hlt.trans_le hle) fun g => ?_
      exact (yields_map_iff Content.text (by intro; rfl) (by intro; rfl)).2 ⟨phrase, h g, rfl⟩
    | _ => exact returns_misplaced fun _ => rfl

/-! ## Alternatives -/

theorem returns_named {k : Filter → Routine Filter} {content : Content} {n : Nat} {Y : Filter → List Token → Prop}
    {F : SyntaxError → Prop} (hmake : G → Qualifier.make? name content = .ok (.named name content))
    (hk : ∀ f, (G → f = leaf (.named name content)) → Returns l G (k f) c n Y F) :
    Returns l G (named name content >>= k) c n Y F := by
  unfold named
  cases hq : Qualifier.make? name content with
  | ok q =>
    refine (hk (leaf q) fun g => ?_).congr rfl
    rw [hmake g] at hq
    cases hq
    rfl
  | error e =>
    refine .fault (List.nil_append _).symm (by rw [after_nil]; rfl) fun g => ?_
    rw [hmake g] at hq
    cases hq

theorem returns_alternatives (hG : G → l.IsGenuine) (hname : G → TakesContent name)
    (hc : l.tokens.drop c.position = ts) (left : Filter) :
    Returns l G (alternatives l name left) c (ts.length + 1) (Leaves (Filter.alternatives name l.stop left ts))
      (Filter.alternatives name l.stop left ts = .error ·) := by
  induction hn : ts.length using Nat.strong_induction_on generalizing c ts left with
  | _ n ih =>
    subst hn
    rw [alternatives]
    refine returns_peek hc ?_
    by_cases hsemicolon : (Lexeme.ofTokens l.stop ts).kind? = some .semicolon
    · rw [if_pos hsemicolon]
      obtain ⟨t, ts, rfl, ht⟩ := kind?_ofTokens_eq_some_iff.1 hsemicolon
      refine returns_advance hc ((returns_content hG (drop_after_cons hc)).bind (fun _ e he => ?_) ?_)
      · exact alternatives_eq_error_iff.2 ⟨t, ts, rfl, ht, .inl he⟩
      intro next us rest hus hlt hnext
      have hlt' : rest.length < (t :: ts).length := hlt.trans (Nat.lt_succ_self _)
      refine returns_named (fun g => ?_) fun right hright => ?_
      · obtain ⟨r, hr, rfl, -⟩ := hnext g
        exact hname g _ _ r hr
      refine (ih _ hlt' (drop_after hus) _ rfl).imp (by omega) (fun g f vs hf => ?_) fun g e he => ?_
      · rw [hright g] at hf
        exact leaves_alternatives_iff.2 (.inr ⟨t, ts, next, rest, rfl, ht, hnext g, hf⟩)
      · rw [hright g] at he
        exact alternatives_eq_error_iff.2 ⟨t, ts, rfl, ht, .inr ⟨next, rest, hnext g, he⟩⟩
    · rw [if_neg hsemicolon]
      refine returns_pure hc (Nat.lt_succ_self _) fun _ => leaves_alternatives_iff.2 (.inl ⟨rfl, rfl, ?_⟩)
      exact avoids_of_kind?_ofTokens hsemicolon

theorem returns_qualified {t : Token} (hG : G → l.IsGenuine) (hname : G → TakesContent (shape t).name)
    (hc : l.tokens.drop c.position = ts) : Returns l G (qualified l t) c ts.length
      (Yields (Filter.qualified l.stop t ts)) (Filter.qualified l.stop t ts = .error ·) := by
  unfold qualified
  refine (returns_content hG hc).bind (fun _ e he => qualified_eq_error_iff.2 (.inl he)) ?_
  intro first us rest hus hlt hfirst
  refine returns_named (fun g => ?_) fun left hleft => ?_
  · obtain ⟨r, hr, rfl, -⟩ := hfirst g
    exact hname g _ _ r hr
  refine (returns_alternatives hG hname (drop_after hus) left).imp hlt (fun g f vs hf => ?_) fun g e he => ?_
  · rw [hleft g] at hf
    exact yields_qualified_iff.2 ⟨first, rest, hfirst g, hf⟩
  · rw [hleft g] at he
    exact qualified_eq_error_iff.2 (.inr ⟨first, rest, hfirst g, he⟩)

end Contents

end Walk

end Filter

end IssueQuery
