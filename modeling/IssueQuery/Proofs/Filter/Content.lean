/-
The readers of quoted phrases, sort keys, ranges and choices agree with the grammar.
-/
import IssueQuery.Proofs.Filter.Grammar
import IssueQuery.Proofs.Reading

namespace IssueQuery.Filter

open Token (Shape shape)
open Qualifier (Content)

/-- The text ends here, or goes on with a token of none of the kinds. -/
def Avoids (kinds : List Token.Kind) (ss : List Shape) : Prop := ∀ s ∈ ss.head?, s.kind ∉ kinds

@[simp] theorem avoids_nil (kinds : List Token.Kind) : Avoids kinds [] := by simp [Avoids]

@[simp] theorem avoids_cons {kinds : List Token.Kind} {s : Shape} {ss : List Shape} :
    Avoids kinds (s :: ss) ↔ s.kind ∉ kinds := by simp [Avoids]

@[simp] theorem shape_kind (t : Token) : (shape t).kind = t.kind := rfl

@[simp] theorem shape_text (t : Token) : (shape t).text = t.text := rfl

/-! ## Quoted phrases -/

theorem yields_quotedWords_iff {stop : Nat} {ts rest : List Token} {words : List String} :
    Yields (quotedWords stop ts) words rest ↔ ∃ ws q, ts = ws ++ q :: rest ∧
      (∀ w ∈ ws, w.kind = .symbol ∨ w.kind = .date) ∧ q.kind = .quote ∧ words = ws.map Token.text := by
  induction ts generalizing words with
  | nil =>
    rw [quotedWords]
    constructor
    · intro h; exact absurd h not_yields_error
    · rintro ⟨ws, q, h, -⟩; simp at h
  | cons t ts ih =>
    have hword (hk : t.kind = .symbol ∨ t.kind = .date) : Yields (do
        let words ← quotedWords stop ts
        return (words.map (t.text :: ·)).past t) words rest ↔ ∃ ws q, t :: ts = ws ++ q :: rest ∧
          (∀ w ∈ ws, w.kind = .symbol ∨ w.kind = .date) ∧ q.kind = .quote ∧ words = ws.map Token.text := by
      refine (yields_map_iff (t.text :: ·) (by intro; rfl) (by intro; rfl)).trans ?_
      constructor
      · rintro ⟨_, hr, rfl⟩
        obtain ⟨ws, q, rfl, hws, hq, rfl⟩ := ih.1 hr
        refine ⟨t :: ws, q, rfl, fun w hw => ?_, hq, rfl⟩
        rcases List.mem_cons.1 hw with rfl | hw
        · exact hk
        · exact hws w hw
      · rintro ⟨ws, q, h, hws, hq, rfl⟩
        cases ws with
        | nil => cases h; rw [hq] at hk; rcases hk with hk | hk <;> cases hk
        | cons w ws =>
          cases h
          exact ⟨_, ih.2 ⟨ws, q, rfl, fun w hw => hws w (List.mem_cons_of_mem _ hw), hq, rfl⟩, rfl⟩
    rw [quotedWords]
    -- the closing quote, a word of either kind, or neither
    split
    · rename_i hk
      refine yields_pure.trans ?_
      constructor
      · rintro ⟨rfl, rfl⟩; exact ⟨[], t, rfl, by simp, hk, rfl⟩
      · rintro ⟨ws, q, h, hws, hq, rfl⟩
        cases ws with
        | nil => cases h; exact ⟨rfl, rfl⟩
        | cons w ws =>
          cases h
          have := hws t (List.mem_cons_self ..)
          rw [hk] at this
          rcases this with h | h <;> cases h
    · exact hword (.inl ‹_›)
    · exact hword (.inr ‹_›)
    · rename_i h1 h2 h3
      constructor
      · intro h; exact absurd h not_yields_error
      · rintro ⟨ws, q, h, hws, hq, rfl⟩
        cases ws with
        | nil => cases h; exact absurd hq h1
        | cons w ws =>
          cases h
          rcases hws t (List.mem_cons_self ..) with h | h
          · exact absurd h h2
          · exact absurd h h3

theorem isQuoted_map_iff {us : List Token} {s : String} :
    IsQuoted (us.map shape) s ↔ ∃ t ws q, us = t :: (ws ++ [q]) ∧ t.kind = .quote ∧
      (∀ w ∈ ws, w.kind = .symbol ∨ w.kind = .date) ∧ q.kind = .quote ∧ s = " ".intercalate (ws.map Token.text) := by
  constructor
  · intro h
    generalize hss : us.map shape = ss at h
    cases h with
    | mk ho hw hc =>
      obtain ⟨t, us', rfl, rfl, hus⟩ := List.map_eq_cons_iff.1 hss
      obtain ⟨ws, qs, rfl, rfl, hqs⟩ := List.map_eq_append_iff.1 hus
      obtain ⟨q, rfl, rfl⟩ := List.map_eq_singleton_iff.1 hqs
      refine ⟨t, ws, q, rfl, ho, fun w hmem => hw (shape w) (List.mem_map_of_mem hmem), hc, ?_⟩
      rw [List.map_map]; rfl
  · rintro ⟨t, ws, q, rfl, ht, hws, hq, rfl⟩
    have hw : ∀ w ∈ ws.map shape, w.kind = .symbol ∨ w.kind = .date := by
      rintro w hw
      obtain ⟨w, hmem, rfl⟩ := List.mem_map.1 hw
      exact hws w hmem
    have h : IsQuoted (shape t :: (ws.map shape ++ [shape q])) _ := .mk ht hw hq
    rw [List.map_map] at h
    simpa [Function.comp_def, shape] using h

theorem yields_quoted_iff {stop : Nat} {t : Token} {ts rest : List Token} {s : String} (ht : t.kind = .quote) :
    Yields (quoted stop ts) s rest ↔ ∃ us, t :: ts = us ++ rest ∧ IsQuoted (us.map shape) s := by
  unfold quoted
  refine (yields_map_iff (" ".intercalate ·) (by intro; rfl) (by intro; rfl)).trans ?_
  constructor
  · rintro ⟨_, hr, rfl⟩
    obtain ⟨ws, q, rfl, hws, hq, rfl⟩ := yields_quotedWords_iff.1 hr
    exact ⟨t :: (ws ++ [q]), by simp, isQuoted_map_iff.2 ⟨t, ws, q, rfl, ht, hws, hq, rfl⟩⟩
  · rintro ⟨us, h, hus⟩
    obtain ⟨t', ws, q, rfl, -, hws, hq, rfl⟩ := isQuoted_map_iff.1 hus
    obtain ⟨rfl, rfl⟩ : t = t' ∧ ts = ws ++ q :: rest := by simpa using h
    exact ⟨_, yields_quotedWords_iff.2 ⟨ws, q, rfl, hws, hq, rfl⟩, rfl⟩

/-! ## Sort keys -/

theorem yields_sortKey_iff {name : String} {stop : Nat} {ts rest : List Token} {k : SortKey} :
    Yields (sortKey name stop ts) k rest ↔ ∃ us, ts = us ++ rest ∧ IsKey (us.map shape) k := by
  constructor
  · intro h
    unfold sortKey at h
    split at h
    · exact absurd h not_yields_error
    · rename_i t ts
      generalize hk : t.kind = kind at h
      cases kind with
      | symbol =>
        obtain ⟨rfl, rfl⟩ := yields_pure.1 h
        exact ⟨[t], rfl, .plain hk⟩
      | not =>
        cases ts with
        | nil => exact absurd h not_yields_error
        | cons key ts =>
          dsimp only at h
          split at h
          · rename_i hs
            obtain ⟨rfl, rfl⟩ := yields_pure.1 h
            exact ⟨[t, key], rfl, .reversed hk hs⟩
          · exact absurd h not_yields_error
      | _ => exact absurd h not_yields_error
  · rintro ⟨us, rfl, hus⟩
    generalize hss : us.map shape = ss at hus
    cases hus with
    | plain hs =>
      obtain ⟨t, rfl, rfl⟩ := List.map_eq_singleton_iff.1 hss
      have hs : t.kind = .symbol := hs
      simp only [List.singleton_append, sortKey, hs]
      exact yields_pure.2 ⟨rfl, rfl⟩
    | reversed hn hs =>
      obtain ⟨t, us, rfl, rfl, hus⟩ := List.map_eq_cons_iff.1 hss
      obtain ⟨key, rfl, rfl⟩ := List.map_eq_singleton_iff.1 hus
      have hn : t.kind = .not := hn
      have hs : key.kind = .symbol := hs
      simp only [List.cons_append, List.nil_append, sortKey, hn, hs, reduceIte]
      exact yields_pure.2 ⟨rfl, rfl⟩

theorem yields_sortKeys_iff {name : String} {stop : Nat} {ts rest : List Token} {ks : List SortKey} :
    Yields (sortKeys name stop ts) ks rest ↔ ∃ k tail, Yields (sortKey name stop ts) k tail ∧
      ((tail = rest ∧ ks = [k] ∧ Avoids [.comma] (rest.map shape)) ∨ ∃ t us ks', tail = t :: us ∧ t.kind = .comma ∧
        Yields (sortKeys name stop us) ks' rest ∧ ks = k :: ks') := by
  rw [sortKeys, yields_bind]
  constructor
  · rintro ⟨⟨k, tail, hlt⟩, hk, h⟩
    refine ⟨k, tail, ⟨_, hk, rfl, rfl⟩, ?_⟩
    dsimp only at h
    split at h
    · obtain ⟨rfl, rfl⟩ := yields_pure.1 h
      exact .inl ⟨rfl, rfl, avoids_nil _⟩
    · rename_i t us
      split at h
      · rename_i hc
        obtain ⟨ks', hks, rfl⟩ := (yields_map_iff (k :: ·) (by intro; rfl) (by intro; rfl)).1 h
        exact .inr ⟨t, us, ks', rfl, hc, hks, rfl⟩
      · rename_i hc
        obtain ⟨rfl, rfl⟩ := yields_pure.1 h
        exact .inl ⟨rfl, rfl, avoids_cons.2 (by simpa using hc)⟩
  · rintro ⟨_, _, ⟨⟨k, tail, hlt⟩, hk, rfl, rfl⟩, h⟩
    refine ⟨_, hk, ?_⟩
    dsimp only at h ⊢
    split
    · rcases h with ⟨rfl, rfl, -⟩ | ⟨t, us, ks', h, -⟩
      · exact yields_pure.2 ⟨rfl, rfl⟩
      · cases h
    · rename_i t us
      rcases h with ⟨rfl, rfl, h⟩ | ⟨t, us, ks', h, hc, hks, rfl⟩
      · rw [if_neg (by simpa using h)]
        exact yields_pure.2 ⟨rfl, rfl⟩
      · cases h
        rw [if_pos hc]
        exact (yields_map_iff (k :: ·) (by intro; rfl) (by intro; rfl)).2 ⟨ks', hks, rfl⟩

theorem IsKeys.ne_nil {ss : List Shape} {ks : List SortKey} (h : IsKeys ss ks) : ss ≠ [] := by
  cases h with
  | one hk => cases hk <;> simp
  | cons => simp

theorem isKeys_of_yields {name : String} {stop : Nat} {ts rest : List Token} {ks : List SortKey}
    (h : Yields (sortKeys name stop ts) ks rest) : ∃ us, ts = us ++ rest ∧ IsKeys (us.map shape) ks := by
  induction hn : ts.length using Nat.strong_induction_on generalizing ts ks with
  | _ n ih =>
    obtain ⟨k, tail, hk, hcases⟩ := yields_sortKeys_iff.1 h
    obtain ⟨us, rfl, hus⟩ := yields_sortKey_iff.1 hk
    rcases hcases with ⟨rfl, rfl, -⟩ | ⟨t, tail, ks', rfl, hc, hks, rfl⟩
    · exact ⟨us, rfl, .one hus⟩
    · obtain ⟨vs, rfl, hvs⟩ := ih _ (by simp at hn ⊢; omega) hks rfl
      exact ⟨us ++ t :: vs, by simp, by simpa using IsKeys.cons hus (show (shape t).kind = .comma from hc) hvs⟩

theorem yields_of_isKeys {name : String} {stop : Nat} {us rest : List Token} {ks : List SortKey}
    (h : IsKeys (us.map shape) ks) (hrest : Avoids [.comma] (rest.map shape)) :
    Yields (sortKeys name stop (us ++ rest)) ks rest := by
  generalize hss : us.map shape = ss at h
  induction h generalizing us with
  | one hk =>
    subst hss
    exact yields_sortKeys_iff.2 ⟨_, rest, yields_sortKey_iff.2 ⟨us, rfl, hk⟩, .inl ⟨rfl, rfl, hrest⟩⟩
  | cons hk hc _ ih =>
    obtain ⟨vs, ws, rfl, rfl, hws⟩ := List.map_eq_append_iff.1 hss
    obtain ⟨t, ws, rfl, rfl, rfl⟩ := List.map_eq_cons_iff.1 hws
    refine yields_sortKeys_iff.2 ⟨_, t :: (ws ++ rest), yields_sortKey_iff.2 ⟨vs, by simp, hk⟩, .inr ?_⟩
    exact ⟨t, _, _, rfl, hc, ih rfl, rfl⟩

/-! ## Ranges -/

theorem dateOf_eq_ok_iff {t : Token} (ht : t.kind = .date) {d : Date} :
    dateOf t = .ok d ↔ (shape t).date? = some d := by
  rw [Token.Shape.date?, shape_kind, if_pos ht, shape_text]
  unfold dateOf
  cases Date.ofText? t.text <;> simp

theorem dateBound_eq_ok_iff {name : String} {t : Token} {d : Date} :
    dateBound name t = .ok d ↔ (shape t).date? = some d := by
  unfold dateBound
  by_cases ht : t.kind = .date
  · rw [if_pos ht, dateOf_eq_ok_iff ht]
  · simp [ht, Token.Shape.date?]

theorem numberBound_eq_ok_iff {name : String} {t : Token} {n : Int} :
    numberBound name t = .ok n ↔ (shape t).number? = some n := by
  unfold numberBound
  change _ ↔ number? t = some n
  cases number? t <;> simp

theorem kind_of_date? {s : Shape} {d : Date} (h : s.date? = some d) : s.kind = .date := by
  by_contra hk
  rw [Token.Shape.date?, if_neg hk] at h
  cases h

theorem kind_of_number? {s : Shape} {n : Int} (h : s.number? = some n) : s.kind = .symbol := by
  by_contra hk
  rw [Token.Shape.number?, if_neg hk] at h
  cases h

/-- The range that a sign and its bound denote. -/
def openRange {α : Type} (sign : Token.Kind) (a : α) : Range α :=
  let strict := sign == .below || sign == .above
  if sign == .below || sign == .atMost then .below a strict else .above a strict

section Span

variable {α : Type} {value? : Shape → Option α} {one : α → Content} {range : Range α → Content} {c : Content}

theorem isSpan_sign_iff (hv : ∀ s a, value? s = some a → s.kind.isRangeOperator = false) {sign : Shape}
    {ss : List Shape} (hs : sign.kind.isRangeOperator = true) : IsSpan value? one range (sign :: ss) c ↔
      ∃ s a, ss = [s] ∧ value? s = some a ∧ c = range (openRange sign.kind a) := by
  constructor
  · intro h
    -- no value is a sign, so the span is half open
    cases h with
    | one ha => rw [hv _ _ ha] at hs; cases hs
    | between ha => rw [hv _ _ ha] at hs; cases hs
    | onwards ha => rw [hv _ _ ha] at hs; cases hs
    | above hk ha => exact ⟨_, _, rfl, ha, by rw [hk]; rfl⟩
    | atLeast hk ha => exact ⟨_, _, rfl, ha, by rw [hk]; rfl⟩
    | below hk ha => exact ⟨_, _, rfl, ha, by rw [hk]; rfl⟩
    | atMost hk ha => exact ⟨_, _, rfl, ha, by rw [hk]; rfl⟩
  · rintro ⟨s, a, rfl, ha, rfl⟩
    generalize hk : sign.kind = kind at hs
    cases kind with
    | above => exact .above hk ha
    | atLeast => exact .atLeast hk ha
    | below => exact .below hk ha
    | atMost => exact .atMost hk ha
    | _ => cases hs

theorem isSpan_value_iff (hv : ∀ s a, value? s = some a → s.kind.isRangeOperator = false) {s : Shape}
    {ss : List Shape} {a : α} (hs : value? s = some a) : IsSpan value? one range (s :: ss) c ↔
      (ss = [] ∧ c = one a) ∨ (∃ d s' b, ss = [d, s'] ∧ d.kind = .dots ∧ value? s' = some b ∧
        c = range (.between a b)) ∨ ∃ d star, ss = [d, star] ∧ d.kind = .dots ∧ star.kind = .star ∧
          c = range (.above a false) := by
  have hop := hv s a hs
  constructor
  · intro h
    -- the value is no sign, so a span with a sign does not begin with it
    cases h with
    | one ha => rw [hs] at ha; cases ha; exact .inl ⟨rfl, rfl⟩
    | between ha hd hb => rw [hs] at ha; cases ha; exact .inr (.inl ⟨_, _, _, rfl, hd, hb, rfl⟩)
    | onwards ha hd hb => rw [hs] at ha; cases ha; exact .inr (.inr ⟨_, _, rfl, hd, hb, rfl⟩)
    | above hk => rw [hk] at hop; cases hop
    | atLeast hk => rw [hk] at hop; cases hop
    | below hk => rw [hk] at hop; cases hop
    | atMost hk => rw [hk] at hop; cases hop
  · rintro (⟨rfl, rfl⟩ | ⟨d, s', b, rfl, hd, hb, rfl⟩ | ⟨d, star, rfl, hd, hb, rfl⟩)
    · exact .one hs
    · exact .between hs hd hb
    · exact .onwards hs hd hb

variable {name : String} {stop : Nat} {bound : Token → Except SyntaxError α} {t : Token} {a : α}

theorem isSpan_of_leaves (hb : ∀ t a, bound t = .ok a → value? (shape t) = some a)
    {ts rest : List Token} (ha : value? (shape t) = some a)
    (h : Leaves (afterBound name stop bound one range a ts) c rest) :
    ∃ us, t :: ts = us ++ rest ∧ IsSpan value? one range (us.map shape) c := by
  unfold afterBound at h
  split at h
  · obtain ⟨rfl, rfl⟩ := leaves_pure.1 h
    exact ⟨[t], rfl, .one ha⟩
  · rename_i d ts
    split at h
    · rename_i hd
      split at h
      · exact absurd h not_leaves_error
      · rename_i u ts
        split at h
        · rename_i hu
          obtain ⟨rfl, rfl⟩ := leaves_pure.1 h
          exact ⟨[t, d, u], rfl, .onwards ha hd hu⟩
        · obtain ⟨b, hub, h⟩ := leaves_bind.1 h
          obtain ⟨rfl, rfl⟩ := leaves_pure.1 h
          exact ⟨[t, d, u], rfl, .between ha hd (hb u b hub)⟩
    · obtain ⟨rfl, rfl⟩ := leaves_pure.1 h
      exact ⟨[t], rfl, .one ha⟩

theorem leaves_of_isSpan (hv : ∀ s a, value? s = some a → s.kind.isRangeOperator = false ∧ s.kind ≠ .star)
    (hb : ∀ t a, value? (shape t) = some a → bound t = .ok a) {us rest : List Token}
    (ha : value? (shape t) = some a) (h : IsSpan value? one range ((t :: us).map shape) c)
    (hrest : Avoids [.dots] (rest.map shape)) :
    Leaves (afterBound name stop bound one range a (us ++ rest)) c rest := by
  rw [List.map_cons, isSpan_value_iff (fun s a h => (hv s a h).1) ha] at h
  rcases h with ⟨hus, rfl⟩ | ⟨d, s', b, hus, hd, hs, rfl⟩ | ⟨d, star, hus, hd, hs, rfl⟩
  · obtain rfl := List.map_eq_nil_iff.1 hus
    cases rest with
    | nil => exact leaves_pure.2 ⟨rfl, rfl⟩
    | cons u rest =>
      have hu : u.kind ≠ .dots := by simpa using hrest
      simp only [List.nil_append, afterBound, hu, reduceIte]
      exact leaves_pure.2 ⟨rfl, rfl⟩
  · obtain ⟨d, us, rfl, rfl, hu⟩ := List.map_eq_cons_iff.1 hus
    obtain ⟨u, rfl, rfl⟩ := List.map_eq_singleton_iff.1 hu
    have hd : d.kind = .dots := hd
    have hu : u.kind ≠ .star := (hv _ _ hs).2
    simp only [List.cons_append, List.nil_append, afterBound, hd, hu, reduceIte]
    exact leaves_bind.2 ⟨b, hb u b hs, leaves_pure.2 ⟨rfl, rfl⟩⟩
  · obtain ⟨d, us, rfl, rfl, hu⟩ := List.map_eq_cons_iff.1 hus
    obtain ⟨u, rfl, rfl⟩ := List.map_eq_singleton_iff.1 hu
    have hd : d.kind = .dots := hd
    have hu : u.kind = .star := hs
    simp only [List.cons_append, List.nil_append, afterBound, hd, hu, reduceIte]
    exact leaves_pure.2 ⟨rfl, rfl⟩

end Span

theorem date?_kind (s : Shape) (d : Date) (h : s.date? = some d) :
    s.kind.isRangeOperator = false ∧ s.kind ≠ .star := by
  rw [kind_of_date? h]; exact ⟨rfl, by decide⟩

theorem number?_kind (s : Shape) (n : Int) (h : s.number? = some n) :
    s.kind.isRangeOperator = false ∧ s.kind ≠ .star := by
  rw [kind_of_number? h]; exact ⟨rfl, by decide⟩

theorem yields_halfOpen_iff {name : String} {stop : Nat} {sign : Token.Kind} {ts rest : List Token} {c : Content} :
    Yields (halfOpen name stop sign ts) c rest ↔ ∃ t, ts = t :: rest ∧
      ((∃ d, (shape t).date? = some d ∧ c = .dates (openRange sign d)) ∨
        ∃ n, (shape t).number? = some n ∧ c = .numbers (openRange sign n)) := by
  cases ts with
  | nil =>
    constructor
    · intro h; exact absurd h not_yields_error
    · rintro ⟨t, h, -⟩; cases h
  | cons t ts =>
    by_cases ht : t.kind = .date
    · simp only [halfOpen, ht, reduceIte, yields_bind, dateOf_eq_ok_iff ht]
      constructor
      · rintro ⟨d, hd, h⟩
        obtain ⟨rfl, rfl⟩ := yields_pure.1 h
        exact ⟨t, rfl, .inl ⟨d, hd, rfl⟩⟩
      · rintro ⟨t', h, ⟨d, hd, rfl⟩ | ⟨n, hn, rfl⟩⟩
        · cases h; exact ⟨d, hd, yields_pure.2 ⟨rfl, rfl⟩⟩
        · cases h; have := kind_of_number? hn; rw [shape_kind, ht] at this; cases this
    · simp only [halfOpen, ht, reduceIte, yields_bind, numberBound_eq_ok_iff]
      constructor
      · rintro ⟨n, hn, h⟩
        obtain ⟨rfl, rfl⟩ := yields_pure.1 h
        exact ⟨t, rfl, .inr ⟨n, hn, rfl⟩⟩
      · rintro ⟨t', h, ⟨d, hd, rfl⟩ | ⟨n, hn, rfl⟩⟩
        · cases h; exact absurd (kind_of_date? hd) ht
        · cases h; exact ⟨n, hn, yields_pure.2 ⟨rfl, rfl⟩⟩

/-! ## Contents and choices -/

section Choice

variable {name : String} {stop : Nat} {ts us rest : List Token} {c : Content} {f : Filter}

theorem isContent_of_yields (h : Yields (content name stop ts) c rest) :
    ∃ us, ts = us ++ rest ∧ IsContent name (us.map shape) c := by
  unfold content at h
  split at h
  · exact absurd h not_yields_error
  -- sort keys, a half-open range, or what the kind of the first token tells
  rename_i t ts
  split at h
  · rename_i hs
    obtain ⟨ks, hks, rfl⟩ := (yields_map_iff Content.sortKeys (by intro; rfl) (by intro; rfl)).1 h
    obtain ⟨us, hts, hus⟩ := isKeys_of_yields hks
    exact ⟨us, hts, .sortKeys hs hus⟩
  · rename_i hs
    split at h
    · rename_i hop
      obtain ⟨_, hr, rfl⟩ := (yields_map_iff id (by intro; rfl) (by intro; rfl)).1 h
      obtain ⟨b, rfl, hb⟩ := yields_halfOpen_iff.1 hr
      refine ⟨[t, b], rfl, ?_⟩
      rcases hb with ⟨d, hd, rfl⟩ | ⟨n, hn, rfl⟩
      · exact .dates hs ((isSpan_sign_iff (fun s d h => (date?_kind s d h).1) hop).2 ⟨_, d, rfl, hd, rfl⟩)
      · exact .numbers hs ((isSpan_sign_iff (fun s n h => (number?_kind s n h).1) hop).2 ⟨_, n, rfl, hn, rfl⟩)
    · split at h
      · rename_i hk
        obtain ⟨d, hd, h⟩ := yields_bind.1 h
        have h := (yields_remainder_iff (by intro; rfl) (by intro; rfl)).1 h
        obtain ⟨us, hts, hus⟩ :=
          isSpan_of_leaves (fun _ _ => dateBound_eq_ok_iff.1) ((dateOf_eq_ok_iff hk).1 hd) h
        exact ⟨us, hts, .dates hs hus⟩
      · rename_i hk
        split at h
        · rename_i n hn
          have h := (yields_remainder_iff (by intro; rfl) (by intro; rfl)).1 h
          have hn : (shape t).number? = some n := hn
          obtain ⟨us, hts, hus⟩ := isSpan_of_leaves (fun _ _ => numberBound_eq_ok_iff.1) hn h
          exact ⟨us, hts, .numbers hs hus⟩
        · rename_i hn
          obtain ⟨rfl, rfl⟩ := yields_pure.1 h
          exact ⟨[t], rfl, .symbol (s := shape t) hs hk hn⟩
      · rename_i hk
        obtain ⟨s, hq, rfl⟩ := (yields_map_iff Content.text (by intro; rfl) (by intro; rfl)).1 h
        obtain ⟨us, hts, hus⟩ := (yields_quoted_iff hk).1 hq
        exact ⟨us, hts, .quoted hs hus⟩
      · exact absurd h not_yields_error

/-- What a span begins with: a value, or the sign of a half-open range. -/
theorem exists_of_isSpan {α : Type} {value? : Shape → Option α} {one : α → Content} {range : Range α → Content}
    (h : IsSpan value? one range (us.map shape) c) : ∃ t vs, us = t :: vs ∧
      (t.kind.isRangeOperator = true ∨ ∃ a, value? (shape t) = some a) := by
  generalize hss : us.map shape = ss at h
  have hsign {sign s : Shape} (h : us.map shape = [sign, s]) (hk : sign.kind.isRangeOperator = true) :
      ∃ t vs, us = t :: vs ∧ (t.kind.isRangeOperator = true ∨ ∃ a, value? (shape t) = some a) := by
    obtain ⟨t, vs, rfl, rfl, -⟩ := List.map_eq_cons_iff.1 h
    exact ⟨t, vs, rfl, .inl hk⟩
  have hvalue {s : Shape} {ss : List Shape} {a : α} (h : us.map shape = s :: ss) (ha : value? s = some a) :
      ∃ t vs, us = t :: vs ∧ (t.kind.isRangeOperator = true ∨ ∃ a, value? (shape t) = some a) := by
    obtain ⟨t, vs, rfl, rfl, -⟩ := List.map_eq_cons_iff.1 h
    exact ⟨t, vs, rfl, .inr ⟨a, ha⟩⟩
  cases h with
  | one ha => exact hvalue hss ha
  | between ha => exact hvalue hss ha
  | onwards ha => exact hvalue hss ha
  | above hk => exact hsign hss (by rw [hk]; rfl)
  | atLeast hk => exact hsign hss (by rw [hk]; rfl)
  | below hk => exact hsign hss (by rw [hk]; rfl)
  | atMost hk => exact hsign hss (by rw [hk]; rfl)

theorem yields_of_dates (hs : Qualifier.Kind.ofName name ≠ .sort)
    (h : IsSpan Shape.date? .date .dates (us.map shape) c) (hrest : Avoids [.dots] (rest.map shape)) :
    Yields (content name stop (us ++ rest)) c rest := by
  obtain ⟨t, vs, rfl, hop | ⟨d, hd⟩⟩ := exists_of_isSpan h
  · obtain ⟨s, d, hvs, hd, rfl⟩ := (isSpan_sign_iff (fun s d h => (date?_kind s d h).1) hop).1 h
    obtain ⟨b, rfl, rfl⟩ := List.map_eq_singleton_iff.1 hvs
    simp only [List.cons_append, content, hs, hop, reduceIte]
    exact (yields_map_iff id (by intro; rfl) (by intro; rfl)).2
      ⟨_, yields_halfOpen_iff.2 ⟨b, rfl, .inl ⟨d, hd, rfl⟩⟩, rfl⟩
  · have hk : t.kind = .date := kind_of_date? hd
    have hop : t.kind.isRangeOperator = false := (date?_kind _ _ hd).1
    simp only [List.cons_append, content, hs, hop, reduceIte, Bool.false_eq_true]
    simp only [hk]
    exact yields_bind.2 ⟨d, (dateOf_eq_ok_iff hk).2 hd, (yields_remainder_iff (by intro; rfl) (by intro; rfl)).2
      (leaves_of_isSpan date?_kind (fun _ _ => dateBound_eq_ok_iff.2) hd h hrest)⟩

theorem yields_of_numbers (hs : Qualifier.Kind.ofName name ≠ .sort)
    (h : IsSpan Shape.number? .number .numbers (us.map shape) c) (hrest : Avoids [.dots] (rest.map shape)) :
    Yields (content name stop (us ++ rest)) c rest := by
  obtain ⟨t, vs, rfl, hop | ⟨n, hn⟩⟩ := exists_of_isSpan h
  · obtain ⟨s, n, hvs, hn, rfl⟩ := (isSpan_sign_iff (fun s n h => (number?_kind s n h).1) hop).1 h
    obtain ⟨b, rfl, rfl⟩ := List.map_eq_singleton_iff.1 hvs
    simp only [List.cons_append, content, hs, hop, reduceIte]
    exact (yields_map_iff id (by intro; rfl) (by intro; rfl)).2
      ⟨_, yields_halfOpen_iff.2 ⟨b, rfl, .inr ⟨n, hn, rfl⟩⟩, rfl⟩
  · have hk : t.kind = .symbol := kind_of_number? hn
    have hop : t.kind.isRangeOperator = false := (number?_kind _ _ hn).1
    have hn' : number? t = some n := hn
    simp only [List.cons_append, content, hs, hop, reduceIte, Bool.false_eq_true]
    simp only [hk, hn']
    exact (yields_remainder_iff (by intro; rfl) (by intro; rfl)).2
      (leaves_of_isSpan number?_kind (fun _ _ => numberBound_eq_ok_iff.2) hn h hrest)

theorem yields_of_isContent (h : IsContent name (us.map shape) c)
    (hrest : Avoids [.comma, .dots] (rest.map shape)) : Yields (content name stop (us ++ rest)) c rest := by
  have hcomma : Avoids [.comma] (rest.map shape) := fun s hs => by have := hrest s hs; simp_all
  have hdots : Avoids [.dots] (rest.map shape) := fun s hs => by have := hrest s hs; simp_all
  generalize hss : us.map shape = ss at h
  cases h with
  | sortKeys hs hks =>
    subst hss
    have hy : Yields (sortKeys name stop (us ++ rest)) _ rest := yields_of_isKeys hks hcomma
    cases us with
    | nil => exact absurd rfl hks.ne_nil
    | cons t us =>
      simp only [List.cons_append, content, hs, reduceIte] at hy ⊢
      exact (yields_map_iff Content.sortKeys (by intro; rfl) (by intro; rfl)).2 ⟨_, hy, rfl⟩
  | dates hs hd => exact yields_of_dates hs (hss ▸ hd) hdots
  | numbers hs hn => exact yields_of_numbers hs (hss ▸ hn) hdots
  | quoted hs hq =>
    subst hss
    obtain ⟨t, ws, q, rfl, ht, -⟩ := isQuoted_map_iff.1 hq
    simp only [List.cons_append, content, hs, ht, Token.Kind.isRangeOperator, reduceIte, Bool.false_eq_true]
    exact (yields_map_iff Content.text (by intro; rfl) (by intro; rfl)).2
      ⟨_, (yields_quoted_iff ht).2 ⟨_, by simp, hq⟩, rfl⟩
  | symbol hs hk hn =>
    obtain ⟨t, rfl, rfl⟩ := List.map_eq_singleton_iff.1 hss
    have hk : t.kind = .symbol := hk
    have hn : number? t = none := hn
    simp only [List.cons_append, List.nil_append, content, hs, hk, hn, Token.Kind.isRangeOperator, reduceIte,
      Bool.false_eq_true]
    exact yields_pure.2 ⟨rfl, rfl⟩

theorem leaves_alternatives_iff {left : Filter} : Leaves (alternatives name stop left ts) f rest ↔
    (ts = rest ∧ f = left ∧ Avoids [.semicolon] (rest.map shape)) ∨ ∃ t us c vs, ts = t :: us ∧
      t.kind = .semicolon ∧ Yields (content name stop us) c vs ∧
        Leaves (alternatives name stop (or left (leaf (.named name c))) vs) f rest := by
  rw [alternatives.eq_def]
  constructor
  · intro h
    split at h
    · obtain ⟨rfl, rfl⟩ := leaves_pure.1 h
      exact .inl ⟨rfl, rfl, avoids_nil _⟩
    · rename_i t us
      split at h
      · rename_i hk
        obtain ⟨⟨c, vs, hlt⟩, hc, h⟩ := leaves_bind.1 h
        have h := (leaves_remainder_iff (by intro; rfl) (by intro; rfl)).1 h
        exact .inr ⟨t, us, c, vs, rfl, hk, ⟨_, hc, rfl, rfl⟩, h⟩
      · rename_i hk
        obtain ⟨rfl, rfl⟩ := leaves_pure.1 h
        exact .inl ⟨rfl, rfl, avoids_cons.2 (by simpa using hk)⟩
  · rintro (⟨rfl, rfl, h⟩ | ⟨t, us, _, _, rfl, hk, ⟨⟨c, vs, hlt⟩, hc, rfl, rfl⟩, h⟩)
    · split
      · exact leaves_pure.2 ⟨rfl, rfl⟩
      · rw [if_neg (by simpa using h)]
        exact leaves_pure.2 ⟨rfl, rfl⟩
    · dsimp only
      rw [if_pos hk]
      exact leaves_bind.2 ⟨_, hc, (leaves_remainder_iff (by intro; rfl) (by intro; rfl)).2 h⟩

theorem yields_qualified_iff {t : Token} : Yields (qualified stop t ts) f rest ↔
    ∃ c vs, Yields (content (shape t).name stop ts) c vs ∧
      Leaves (alternatives (shape t).name stop (leaf (.named (shape t).name c)) vs) f rest := by
  unfold qualified
  rw [yields_bind]
  constructor
  · rintro ⟨⟨c, vs, hlt⟩, hc, h⟩
    exact ⟨c, vs, ⟨_, hc, rfl, rfl⟩, (yields_remainder_iff (by intro; rfl) (by intro; rfl)).1 h⟩
  · rintro ⟨_, _, ⟨⟨c, vs, hlt⟩, hc, rfl, rfl⟩, h⟩
    exact ⟨_, hc, (yields_remainder_iff (by intro; rfl) (by intro; rfl)).2 h⟩

theorem isChoice_of_leaves {left : Filter} {ls : List Shape} (hl : IsChoice name ls left)
    (h : Leaves (alternatives name stop left ts) f rest) :
    ∃ us, ts = us ++ rest ∧ IsChoice name (ls ++ us.map shape) f := by
  -- `ls` are the contents that were read before
  induction hn : ts.length using Nat.strong_induction_on generalizing ts left ls with
  | _ n ih =>
    rcases leaves_alternatives_iff.1 h with ⟨rfl, rfl, -⟩ | ⟨t, us, c, vs, rfl, hk, hc, htail⟩
    · exact ⟨[], rfl, by simpa using hl⟩
    · obtain ⟨us, rfl, hus⟩ := isContent_of_yields hc
      have hl : IsChoice name (ls ++ shape t :: us.map shape) _ := .or hl hk hus
      obtain ⟨ws, rfl, hws⟩ := ih _ (by simp at hn ⊢; omega) hl htail rfl
      exact ⟨t :: (us ++ ws), by simp, by simpa using hws⟩

theorem isChoice_of_yields {t : Token} (h : Yields (qualified stop t ts) f rest) :
    ∃ us, ts = us ++ rest ∧ IsChoice (shape t).name (us.map shape) f := by
  obtain ⟨c, vs, hc, htail⟩ := yields_qualified_iff.1 h
  obtain ⟨us, rfl, hus⟩ := isContent_of_yields hc
  obtain ⟨ws, rfl, hws⟩ := isChoice_of_leaves (.one hus) htail
  exact ⟨us ++ ws, by simp, by simpa using hws⟩

/-- After the contents of a choice, the reader goes on to further ones. -/
theorem yields_of_leaves {t : Token} {left : Filter} {vs : List Token}
    (hl : IsChoice (shape t).name (us.map shape) left) (hvs : Avoids [.comma, .dots] (vs.map shape))
    (h : Leaves (alternatives (shape t).name stop left vs) f rest) : Yields (qualified stop t (us ++ vs)) f rest := by
  generalize hss : us.map shape = ss at hl
  -- a choice grows to the right: its last content is read after all the others
  induction hl generalizing us vs with
  | one hc =>
    subst hss
    exact yields_qualified_iff.2 ⟨_, vs, yields_of_isContent hc hvs, h⟩
  | or _ hk hc ih =>
    obtain ⟨ws, us, rfl, rfl, hus⟩ := List.map_eq_append_iff.1 hss
    obtain ⟨u, us, rfl, rfl, rfl⟩ := List.map_eq_cons_iff.1 hus
    have hk : u.kind = .semicolon := hk
    rw [List.append_assoc]
    refine ih (by simp [hk]) (leaves_alternatives_iff.2 (.inr ?_)) rfl
    exact ⟨u, us ++ vs, _, vs, rfl, hk, yields_of_isContent hc hvs, h⟩

theorem yields_of_isChoice {t : Token} (h : IsChoice (shape t).name (us.map shape) f)
    (hrest : Avoids [.semicolon, .comma, .dots] (rest.map shape)) : Yields (qualified stop t (us ++ rest)) f rest := by
  refine yields_of_leaves h (fun s hs => ?_) (leaves_alternatives_iff.2 (.inl ⟨rfl, rfl, fun s hs => ?_⟩))
  · have := hrest s hs
    simp_all
  · have := hrest s hs
    simp_all

end Choice

/-! ## Kinds of tokens -/

section Kinds

variable {name : String} {us : List Shape} {c : Content}

/-- The kinds of the tokens that phrases in quotes and choices consist of. -/
def leafKinds : List Token.Kind :=
  [.symbol, .date, .quote, .not, .comma, .semicolon, .dots, .star, .above, .atLeast, .below, .atMost]

theorem IsQuoted.kind_mem {s : String} (h : IsQuoted us s) : ∀ u ∈ us, u.kind ∈ leafKinds := by
  cases h with
  | mk ho hw hc =>
    refine List.forall_mem_cons.2
      ⟨by simp +decide [ho], List.forall_mem_append.2 ⟨fun w hmem => ?_, by simp +decide [hc]⟩⟩
    rcases hw w hmem with hk | hk <;> simp +decide [hk]

theorem IsKeys.kind_mem {ks : List SortKey} (h : IsKeys us ks) : ∀ u ∈ us, u.kind ∈ leafKinds := by
  have hkey {ss : List Shape} {k : SortKey} (h : IsKey ss k) : ∀ s ∈ ss, s.kind ∈ leafKinds := by
    cases h with
    | plain hk => simp +decide [hk]
    | reversed hn hk => simp +decide [hn, hk]
  induction h with
  | one hk => exact hkey hk
  | cons hk hc _ ih =>
    exact List.forall_mem_append.2 ⟨hkey hk, List.forall_mem_cons.2 ⟨by simp +decide [hc], ih⟩⟩

theorem IsSpan.kind_mem {α : Type} {value? : Shape → Option α} {one : α → Content} {range : Range α → Content}
    (hv : ∀ s a, value? s = some a → s.kind ∈ leafKinds) (h : IsSpan value? one range us c) :
    ∀ u ∈ us, u.kind ∈ leafKinds := by
  cases h with
  | one ha => simp [hv _ _ ha]
  | between ha hd hb => simp +decide [hv _ _ ha, hd, hv _ _ hb]
  | onwards ha hd hs => simp +decide [hv _ _ ha, hd, hs]
  | above hs ha => simp +decide [hs, hv _ _ ha]
  | atLeast hs ha => simp +decide [hs, hv _ _ ha]
  | below hs ha => simp +decide [hs, hv _ _ ha]
  | atMost hs ha => simp +decide [hs, hv _ _ ha]

theorem IsContent.kind_mem (h : IsContent name us c) : ∀ u ∈ us, u.kind ∈ leafKinds := by
  cases h with
  | sortKeys _ hk => exact hk.kind_mem
  | dates _ hd => exact hd.kind_mem fun s a ha => by simp +decide [kind_of_date? ha]
  | numbers _ hn => exact hn.kind_mem fun s a ha => by simp +decide [kind_of_number? ha]
  | quoted _ hq => exact hq.kind_mem
  | symbol _ hk => simp +decide [hk]

theorem IsChoice.kind_mem {f : Filter} (h : IsChoice name us f) : ∀ u ∈ us, u.kind ∈ leafKinds := by
  induction h with
  | one hc => exact hc.kind_mem
  | or _ hs hc ih =>
    exact List.forall_mem_append.2 ⟨ih, List.forall_mem_cons.2 ⟨by simp +decide [hs], hc.kind_mem⟩⟩

end Kinds

end IssueQuery.Filter
