/-
References keep to themselves. A text whose references are expanded is read as the text with a fresh
keyword between brackets for each of them, and the filters that were saved stand where these
keywords stood: nothing around a reference takes anything from within.
-/
import IssueQuery.Project.Saved
import IssueQuery.Proofs.Filter.Display
import IssueQuery.Proofs.Filter.Exchange
import Mathlib.Data.List.Forall2

namespace IssueQuery.SavedFilters

open Token (Shape Lexes)

/-! ## References and what stands around them -/

/-- A character of a text, or a reference in it. -/
inductive Piece
  | character (c : Char)
  | reference (name : String)

/-- The pieces of a text. An at sign without a name is a character. -/
def pieces : List Char → List Piece
  | [] => []
  | c :: cs =>
    if c = '@' ∧ cs.takeWhile isNameChar ≠ [] then
      have : (cs.dropWhile isNameChar).length < cs.length + 1 :=
        Nat.lt_succ_of_le (Text.length_dropWhile_le isNameChar cs)
      .reference (String.ofList (cs.takeWhile isNameChar)) :: pieces (cs.dropWhile isNameChar)
    else .character c :: pieces cs
termination_by cs => cs.length

/-- The names in the references. -/
def names : List Piece → List String
  | [] => []
  | .character _ :: ps => names ps
  | .reference name :: ps => name :: names ps

/-- The text with the given ones, between brackets, in the place of its references. When there are
no more texts the brackets stay empty. -/
def weave : List (List Char) → List Piece → List Char
  | _, [] => []
  | ts, .character c :: ps => c :: weave ts ps
  | [], .reference _ :: ps => '(' :: ')' :: weave [] ps
  | t :: ts, .reference _ :: ps => '(' :: (t ++ ')' :: weave ts ps)

/-- The names that a text refers to, from left to right. -/
def references (input : String) : List String := names (pieces input.toList)

/-- The text with a keyword between brackets in the place of each reference. -/
def marked (zs : List String) (input : String) : String :=
  String.ofList (weave (zs.map String.toList) (pieces input.toList))

/-- The text with empty brackets in the place of each reference. -/
def outline (input : String) : List Char := weave [] (pieces input.toList)

/-- The name refers to a text that is not blank and is read as the filter. -/
def Resolves (s : SavedFilters) (name : String) (f : Filter) : Prop :=
  ∃ text, s.find? name = some text ∧ (Text.trim text.toList).isEmpty = false ∧ Filter.parse text = .ok f

/-- Keywords that differ from each other and occur nowhere in the text outside of its references. -/
structure Fresh (zs : List String) (input : String) : Prop where
  symbols : ∀ z ∈ zs, Token.isSymbol z = true
  nodup : zs.Nodup
  absent : ∀ z ∈ zs, ¬ z.toList <:+: outline input

/-! ## Expansion -/

theorem reference_of_find? {s : SavedFilters} {name : List Char} {text : String} (hn : name ≠ [])
    (hs : s.find? (String.ofList name) = some text) (ht : text ≠ "") :
    s.reference name = .ok ('(' :: (text.toList ++ [')'])) := by
  have hn : name.isEmpty = false := by simpa using hn
  have ht : text.isEmpty = false := by simpa using ht
  simp [reference, hn, hs, ht]

theorem expandChars_at (s : SavedFilters) (cs : List Char) : s.expandChars ('@' :: cs) = do
    let replaced ← s.reference (cs.takeWhile isNameChar)
    return replaced ++ (← s.expandChars (cs.dropWhile isNameChar)) := by
  rw [expandChars, if_pos (beq_self_eq_true '@')]

/-- All but an at sign with a name is kept. -/
theorem expandChars_character {s : SavedFilters} {c : Char} {cs : List Char}
    (h : ¬ (c = '@' ∧ cs.takeWhile isNameChar ≠ [])) :
    s.expandChars (c :: cs) = do return c :: (← s.expandChars cs) := by
  by_cases hat : c = '@'
  · have hnil : cs.takeWhile isNameChar = [] := by
      by_contra hne
      exact h ⟨hat, hne⟩
    have hdrop : cs.dropWhile isNameChar = cs := List.dropWhile_eq_self_iff.2 (List.takeWhile_eq_nil_iff.1 hnil)
    rw [hat, expandChars_at, hnil, hdrop]
    rfl
  · rw [expandChars, if_neg (by simpa using hat)]

/-- To expand a text is to weave the saved ones into it. -/
theorem expandChars_eq {s : SavedFilters} {cs : List Char} {texts : List String}
    (h : List.Forall₂ (fun name text => s.find? name = some text ∧ text ≠ "") (names (pieces cs)) texts) :
    s.expandChars cs = .ok (weave (texts.map String.toList) (pieces cs)) := by
  fun_induction pieces cs generalizing texts with
  | case1 => rw [expandChars, weave]
  | case2 c cs hc hlt ih =>
    obtain ⟨rfl, hne⟩ := hc
    cases h with
    | @cons _ text _ texts hs h =>
      rw [expandChars_at, reference_of_find? hne hs.1 hs.2, ih h, List.map_cons, weave]
      show Except.ok ('(' :: (text.toList ++ [')']) ++ weave (texts.map String.toList) _) = _
      rw [List.cons_append, List.append_assoc, List.singleton_append]
  | case3 c cs hc ih =>
    rw [expandChars_character hc, ih h, weave]
    rfl

/-! ## Tokens of woven texts -/

/-- Both texts hold a whole expression, and `T` relates the filters of the two. -/
def Interchangeable (T : Filter → Filter → Prop) (t t' : List Char) : Prop :=
  ∃ xs ys f g, Lexes t xs ∧ Filter.Reads (.expression 0) xs f [] ∧ Lexes t' ys ∧
    Filter.Reads (.expression 0) ys g [] ∧ T f g

theorem Interchangeable.swap {T : Filter → Filter → Prop} {t t' : List Char} (h : Interchangeable T t t') :
    Interchangeable (fun f g => T g f) t' t := by
  obtain ⟨xs, ys, f, g, hxs, hf, hys, hg, hT⟩ := h
  exact ⟨ys, xs, g, f, hys, hg, hxs, hf, hT⟩

/-- The tokens of a text that holds none of the keywords. -/
theorem text_not_mem_of_lexes {zs : List String} {cs : List Char} {ss : List Shape} (h : Lexes cs ss)
    (hzs : ∀ z ∈ zs, ¬ z.toList <:+: cs) : ∀ s ∈ ss, s.text ∉ zs :=
  fun s hs hz => hzs s.text hz (h.isInfix s hs)

/-- Of two texts with interchangeable parts between their brackets, the tokens differ in those parts. -/
theorem exists_lexes_weave {T : Filter → Filter → Prop} {zs : List String} {ps : List Piece}
    {ts ts' : List (List Char)} (hts : List.Forall₂ (Interchangeable T) ts ts') (hlen : ts.length = (names ps).length)
    (lead : List Char) (hzs : ∀ z ∈ zs, ¬ z.toList <:+: lead ++ weave [] ps) {ss : List Shape}
    (h : Lexes (lead ++ weave ts ps) ss) :
    ∃ us, Lexes (lead ++ weave ts' ps) us ∧ Filter.Exchanged T zs ss us := by
  -- `lead` is what has passed since the last bracket, since tokens end there but not at each character
  induction ps generalizing ts ts' lead ss with
  | nil =>
    rw [weave, List.append_nil] at h hzs
    rw [weave, List.append_nil]
    have := Filter.Exchanged.append_left (T := T) (text_not_mem_of_lexes h hzs) .nil
    rw [List.append_nil] at this
    exact ⟨ss, h, this⟩
  | cons p ps ih =>
    cases p with
    | character c =>
      have hsplit (ts : List (List Char)) : lead ++ weave ts (.character c :: ps) = lead ++ [c] ++ weave ts ps := by
        simp [weave]
      rw [hsplit] at h hzs ⊢
      exact ih hts hlen (lead ++ [c]) hzs h
    | reference name =>
      cases hts with
      | nil => cases hlen
      | @cons t t' ts ts' ht hts =>
        rw [weave] at h
        rw [weave] at hzs
        rw [weave]
        obtain ⟨as, xs, bs, rfl, has, hxs, hbs⟩ := Token.lexes_around_iff.1 h
        -- the text in the brackets has the tokens that make it interchangeable, and no others
        obtain ⟨xs', ys, f, g, hxs', hf, hys, hg, hT⟩ := ht
        obtain rfl := hxs.unique hxs'
        obtain ⟨us, hus, hx⟩ := ih hts (Nat.succ.inj hlen) []
          (fun z hz hin => hzs z hz (hin.trans ⟨lead ++ "()".toList, [], by simp⟩)) hbs
        have hlead := text_not_mem_of_lexes has fun z hz hin => hzs z hz (hin.trans (List.prefix_append _ _).isInfix)
        exact ⟨_, Token.lexes_around_iff.2 ⟨as, ys, us, rfl, has, hys, hus⟩,
          .append_left hlead (.phrase rfl rfl hf hg hT hx)⟩

/-! ## Reading woven texts -/

/-- Where one text is read, the other is, and as the filter with the parts replaced. -/
theorem exists_parse_weave {T : Filter → Filter → Prop} {zs : List String} {ps : List Piece}
    {ts ts' : List (List Char)} (hts : List.Forall₂ (Interchangeable T) ts ts') (hlen : ts.length = (names ps).length)
    (hsymbols : ∀ z ∈ zs, Token.isSymbol z = true) (hzs : ∀ z ∈ zs, ¬ z.toList <:+: weave [] ps) {f : Filter}
    (h : Filter.parse (String.ofList (weave ts ps)) = .ok f) :
    ∃ g, Filter.parse (String.ofList (weave ts' ps)) = .ok g ∧ Filter.Replaced T zs f g := by
  obtain ⟨ss, hss, hf⟩ := Filter.parse_eq_ok_iff.1 h
  rw [String.toList_ofList] at hss
  obtain ⟨us, hus, hx⟩ := exists_lexes_weave hts hlen [] hzs hss
  obtain ⟨g, hg, hr⟩ := hf.exchange hsymbols hx
  exact ⟨g, Filter.parse_eq_ok_iff.2 ⟨us, by rwa [String.toList_ofList], hg⟩, hr⟩

/-- A keyword is interchangeable with a text that is read as the filter to replace it. -/
theorem interchangeable_of_parse {ps : List (String × Filter)} {z text : String} {f : Filter}
    (hz : Token.isSymbol z = true) (hp : (z, f) ∈ ps) (ht : (Text.trim text.toList).isEmpty = false)
    (h : Filter.parse text = .ok f) : Interchangeable (Filter.Fills ps) z.toList text.toList := by
  obtain ⟨ss, hss, hf⟩ := Filter.exists_reads_of_parse ht h
  have hsymbol := Token.lexes_single (Token.isSymbol_iff.1 hz)
  exact ⟨_, ss, _, f, hsymbol, .expression (.symbol rfl) (.stop (Filter.bindsWithin_nil 0)), hss, hf, z,
    by rw [String.ofList_toList], hp⟩

/-- The saved texts that the names refer to. -/
theorem exists_texts {s : SavedFilters} {ns : List String} {ps qs : List (String × Filter)}
    (h : List.Forall₂ (fun name p => s.Resolves name p.2) ns ps) (hsub : ps ⊆ qs)
    (hsymbols : ∀ p ∈ ps, Token.isSymbol p.1 = true) :
    ∃ texts : List String, List.Forall₂ (fun name text => s.find? name = some text ∧ text ≠ "") ns texts ∧
      List.Forall₂ (Interchangeable (Filter.Fills qs)) (ps.map (·.1.toList)) (texts.map String.toList) := by
  induction h with
  | nil => exact ⟨[], .nil, .nil⟩
  | @cons name p ns ps hp _ ih =>
    obtain ⟨text, hs, ht, hparse⟩ := hp
    obtain ⟨texts, hfind, hx⟩ := ih (fun q hq => hsub (List.mem_cons_of_mem _ hq))
      fun q hq => hsymbols q (List.mem_cons_of_mem _ hq)
    have hne : text ≠ "" := by
      rintro rfl
      cases ht
    exact ⟨text :: texts, .cons ⟨hs, hne⟩ hfind, .cons
      (interchangeable_of_parse (hsymbols p (List.mem_cons_self ..)) (hsub (List.mem_cons_self ..)) ht hparse) hx⟩

/-- A text whose references are expanded is read if and only if it is read with fresh keywords between
brackets in their place; and then as the same filter, with the saved ones in the place of the keywords. -/
theorem parse_expand {s : SavedFilters} {input : String} {ps : List (String × Filter)}
    (hsaved : List.Forall₂ (fun name p => s.Resolves name p.2) (references input) ps)
    (hfresh : Fresh (ps.map Prod.fst) input) :
    ∃ text, s.expand input = .ok text ∧
      (Filter.parse text).toOption =
        (Filter.parse (marked (ps.map Prod.fst) input)).toOption.map (Filter.fill ps) := by
  obtain ⟨texts, hfind, hx⟩ := exists_texts hsaved (List.Subset.refl ps) fun p hp =>
    hfresh.symbols p.1 (List.mem_map_of_mem hp)
  have hmarked : marked (ps.map Prod.fst) input =
      String.ofList (weave (ps.map (·.1.toList)) (pieces input.toList)) := by
    rw [marked, List.map_map]
    rfl
  have hlen : ps.length = (references input).length := hsaved.length_eq.symm
  refine ⟨_, by rw [expand, expandChars_eq hfind]; rfl, ?_⟩
  rw [hmarked]
  cases hm : Filter.parse (String.ofList (weave (ps.map (·.1.toList)) (pieces input.toList))) with
  | ok f =>
    obtain ⟨g, hg, hr⟩ := exists_parse_weave hx ((List.length_map _).trans hlen) hfresh.symbols hfresh.absent hm
    rw [hg, hr.eq_fill hfresh.nodup]
    rfl
  | error e =>
    cases ht : Filter.parse (String.ofList (weave (texts.map String.toList) (pieces input.toList))) with
    | error e => rfl
    | ok g =>
      -- exchanging the texts back for the keywords
      have hlen' := hx.length_eq.symm.trans ((List.length_map _).trans hlen)
      obtain ⟨f, hf, -⟩ := exists_parse_weave (hx.flip.imp fun _ _ => Interchangeable.swap) hlen' hfresh.symbols
        hfresh.absent ht
      rw [hm] at hf
      cases hf

/-- A choice that is negated stays one under the negation. -/
theorem parse_expand_negated_choice : ∃ text,
    (ofList [("bugs", "label:bug"), ("ours", "a OR b")]).expand "!@ours c OR @bugs" = .ok text ∧
      Filter.parse text = .ok (.or
        (.and (.not (.or (.leaf (.keyword "a")) (.leaf (.keyword "b")))) (.leaf (.keyword "c")))
        (.leaf (.named "label" (.text "bug")))) := by
  have hours : Filter.parse "a OR b" = .ok (.or (.leaf (.keyword "a")) (.leaf (.keyword "b"))) :=
    eq_ok_of_toOption (by decide +kernel)
  have hbugs : Filter.parse "label:bug" = .ok (.leaf (.named "label" (.text "bug"))) :=
    eq_ok_of_toOption (by decide +kernel)
  have hreferences : references "!@ours c OR @bugs" = ["ours", "bugs"] := by decide +kernel
  have hmarked : (Filter.parse (marked ["x", "y"] "!@ours c OR @bugs")).toOption = some (.or
      (.and (.not (.leaf (.keyword "x"))) (.leaf (.keyword "c"))) (.leaf (.keyword "y"))) := by decide +kernel
  have houtline : outline "!@ours c OR @bugs" = "!() c OR ()".toList := by decide +kernel
  have hfresh : Fresh ["x", "y"] "!@ours c OR @bugs" := by
    refine ⟨by decide +kernel, by decide, ?_⟩
    rw [houtline]
    decide
  have hsaved : List.Forall₂
      (fun name p => (ofList [("bugs", "label:bug"), ("ours", "a OR b")]).Resolves name p.2)
      (references "!@ours c OR @bugs")
      [("x", .or (.leaf (.keyword "a")) (.leaf (.keyword "b"))), ("y", .leaf (.named "label" (.text "bug")))] := by
    rw [hreferences]
    refine .cons ⟨"a OR b", ?_, ?_, hours⟩ (.cons ⟨"label:bug", ?_, ?_, hbugs⟩ .nil)
    all_goals decide
  obtain ⟨text, ht, h⟩ := parse_expand hsaved hfresh
  exact ⟨text, ht, eq_ok_of_toOption ((h.trans (congrArg _ hmarked)).trans (by decide))⟩

end IssueQuery.SavedFilters
