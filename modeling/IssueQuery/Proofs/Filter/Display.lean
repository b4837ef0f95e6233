/-
The text of a leaf is cut into the tokens that the grammar asks for, so it is read as the same leaf.
-/
import IssueQuery.Proofs.Filter.Leaves

namespace IssueQuery

open Token (Shape Lexes)
open Qualifier (Content IsName IsWord IsPlainNumber IsWrittenRange IsLegible)

/-! ## Single tokens -/

namespace Token

theorem Shape.Genuine.lexes {s : Shape} (h : s.Genuine) : Lexes s.text.toList [s] := by
  have := lexes_single h
  rwa [String.ofList_toList] at this

theorem not_mem_signs_of_isDigit {c : Char} (h : c.isDigit = true) : c ∉ "AON&|~!-;".toList := by
  intro hm
  have : ("AON&|~!-;".toList.all fun c => !c.isDigit) = true := by decide
  simpa [h] using List.all_eq_true.1 this c hm

theorem firstMatch?_digits {ds : List Char} (h : ∀ c ∈ ds, c.isDigit = true) (hne : ds ≠ []) :
    firstMatch? ds = some (.symbol, ds.length) := by
  obtain ⟨c, cs, rfl⟩ := List.exists_cons_of_ne_nil hne
  have hc := h c (List.mem_cons_self ..)
  have hword {d : Char} (hd : d.isDigit = true) : Text.isWord d = true :=
    Text.isWord_of_isAlphanum (Text.isAlphanum_of_isDigit hd)
  have hdate : dateLength (c :: cs) = none := by
    refine Option.eq_none_iff_forall_ne_some.2 fun n hn => ?_
    obtain ⟨y, m, rest, -, -, hcs⟩ := exists_of_dateLength hn
    have := h '-' (by rw [hcs]; simp)
    exact absurd this (by decide)
  have hqualifier : qualifierLength (c :: cs) = none := by
    refine qualifierLength_eq_none ?_
    by_contra ha
    rw [Text.isDigit_eq_false_of_isAlpha (by simpa using ha)] at hc
    cases hc
  have hsymbol : symbolLength (c :: cs) = some (c :: cs).length := by
    rw [symbolLength_cons (by simp [startsSymbol, hword hc]), List.takeWhile_eq_self_iff.2, List.length_cons]
    intro d hd
    simp [continuesSymbol, hword (h d (List.mem_cons_of_mem _ hd))]
  exact firstMatch?_symbol (not_mem_signs_of_isDigit hc) hdate hqualifier hsymbol

theorem firstMatch?_isDate {cs : List Char} (h : IsDate cs) : firstMatch? cs = some (.date, cs.length) := by
  obtain ⟨n, hn, hle⟩ := takesLongest_dateLength.longest h List.prefix_rfl
  obtain rfl : cs.length = n := le_antisymm hle (takesLongest_dateLength.le_length hn)
  obtain ⟨c, rest, hcs, hc⟩ : ∃ c rest, cs = c :: rest ∧ c.isDigit = true := by
    cases h with
    | @mk y _ _ hy =>
      cases y with
      | nil => exact absurd hy.least (by decide)
      | cons c y => exact ⟨c, _, rfl, hy.digits c (List.mem_cons_self ..)⟩
  have hsign : c ∉ "AON&|~!-".toList := fun hm => not_mem_signs_of_isDigit hc (by simp at hm ⊢; tauto)
  rw [hcs] at hn ⊢
  exact firstMatch?_date hsign hn

/-- No token begins with an equals sign, so a sign before one keeps to itself. -/
theorem Shape.Genuine.lexes_strictSign {s : Shape} (h : s.Genuine) {kind : Kind} {sign : String}
    (hsign : (kind, sign) ∈ strictSigns) : Lexes (sign.toList ++ s.text.toList) [⟨kind, sign⟩, s] := by
  obtain ⟨c, cs, hcs, -⟩ := exists_of_firstMatch? h
  have hc : c ≠ '=' := by
    rintro rfl
    unfold Genuine at h
    rw [hcs, firstMatch?_eq_none cs (by decide +kernel) (by decide)] at h
    cases h
  have hm := firstMatch?_strictSign hsign hc cs
  rw [← hcs] at hm
  have := Lexes.first hm h.lexes
  rwa [String.ofList_toList] at this

end Token

/-! ## Numbers, dates and ranges -/

namespace Filter

theorem isPlain_date {d : Date} (h : d.IsPlain) :
    Shape.Genuine ⟨.date, d.text⟩ ∧ Shape.date? ⟨.date, d.text⟩ = some d :=
  ⟨Token.firstMatch?_isDate (Date.isDate_text h), Date.ofText?_text d⟩

theorem isPlain_number {n : Int} (h : IsPlainNumber n) :
    Shape.Genuine ⟨.symbol, toString n⟩ ∧ Shape.number? ⟨.symbol, toString n⟩ = some n := by
  obtain ⟨k, rfl, hk⟩ := h
  constructor
  · unfold Shape.Genuine
    rw [Text.toList_toString]
    exact Token.firstMatch?_digits (fun c hc => Nat.isDigit_of_mem_toDigits (by omega) (by omega) hc)
      Nat.toDigits_ne_nil
  · exact Text.int64?_toString hk

section Span

variable {α : Type} {P : α → Prop} {kind : Token.Kind} {text : α → String} {value? : Shape → Option α}
  {one : α → Content} {range : Range α → Content}

/-- A range whose bounds are single tokens. -/
theorem exists_lexes_range (htext : ∀ {a}, P a → Shape.Genuine ⟨kind, text a⟩ ∧ value? ⟨kind, text a⟩ = some a)
    (hkind : kind ≠ .qualifier) {r : Range α} (h : IsWrittenRange P r) : ∃ ss, Lexes (r.text text).toList ss ∧
      IsSpan value? one range ss (range r) ∧ ∀ s ∈ ss, s.kind ≠ .qualifier := by
  cases h with
  | @between a b ha hb =>
    have hdots := Lexes.sign (show (.dots, "..") ∈ Token.signs by simp [Token.signs]) (htext hb).1.lexes.space
    refine ⟨[⟨kind, text a⟩, ⟨.dots, ".."⟩, ⟨kind, text b⟩], ?_, .between (htext ha).2 rfl (htext hb).2, ?_⟩
    · simpa [Range.text, Range.between] using (htext ha).1.lexes.append_space hdots
    · simp [hkind]
  | @above a strict ha =>
    obtain ⟨hg, hv⟩ := htext ha
    cases strict with
    | true =>
      refine ⟨[⟨.above, ">"⟩, ⟨kind, text a⟩], ?_, .above rfl hv, by simp [hkind]⟩
      have hsign : (.above, ">") ∈ Token.strictSigns := by simp [Token.strictSigns]
      simpa [Range.text, Range.above] using hg.lexes_strictSign hsign
    | false =>
      refine ⟨[⟨.atLeast, ">="⟩, ⟨kind, text a⟩], ?_, .atLeast rfl hv, by simp [hkind]⟩
      have hsign : (.atLeast, ">=") ∈ Token.signs := by simp [Token.signs]
      simpa [Range.text, Range.above] using Lexes.sign hsign hg.lexes
  | @below a strict ha =>
    obtain ⟨hg, hv⟩ := htext ha
    cases strict with
    | true =>
      refine ⟨[⟨.below, "<"⟩, ⟨kind, text a⟩], ?_, .below rfl hv, by simp [hkind]⟩
      have hsign : (.below, "<") ∈ Token.strictSigns := by simp [Token.strictSigns]
      simpa [Range.text, Range.below] using hg.lexes_strictSign hsign
    | false =>
      refine ⟨[⟨.atMost, "<="⟩, ⟨kind, text a⟩], ?_, .atMost rfl hv, by simp [hkind]⟩
      have hsign : (.atMost, "<=") ∈ Token.signs := by simp [Token.signs]
      simpa [Range.text, Range.below] using Lexes.sign hsign hg.lexes

end Span

/-! ## Phrases and sort keys -/

theorem prolongs_quote : Token.prolongs '"' = false := by decide +kernel

theorem prolongs_comma : Token.prolongs ',' = false := by decide +kernel

theorem exists_lexes_words {ws : List String} (h : ∀ w ∈ ws, IsWord w) :
    ∃ ss, Lexes (" ".intercalate ws).toList ss ∧ (∀ s ∈ ss, s.kind = .symbol ∨ s.kind = .date) ∧
      ss.map Shape.text = ws := by
  have hword {w : String} (h : IsWord w) : ∃ s : Shape, Lexes w.toList [s] ∧ (s.kind = .symbol ∨ s.kind = .date) ∧
      s.text = w := by
    rcases h with h | h
    · exact ⟨_, h.lexes, .inl rfl, rfl⟩
    · exact ⟨_, h.lexes, .inr rfl, rfl⟩
  induction ws with
  | nil => exact ⟨[], .done (by simp), by simp, rfl⟩
  | cons w ws ih =>
    obtain ⟨s, hs, hk, rfl⟩ := hword (h w (List.mem_cons_self ..))
    obtain ⟨ss, hss, hks, rfl⟩ := ih fun w hw => h w (List.mem_cons_of_mem _ hw)
    refine ⟨s :: ss, ?_, by simpa using ⟨hk, hks⟩, rfl⟩
    cases ss with
    | nil => simpa using hs
    | cons s' ss =>
      rw [List.map_cons] at hss ⊢
      rw [String.intercalate_cons_cons]
      simpa using hs.append_space hss

theorem lexes_quoted {s : String} {ss : List Shape} (h : Lexes s.toList ss) :
    Lexes ("\"" ++ s ++ "\"").toList (⟨.quote, "\""⟩ :: (ss ++ [⟨.quote, "\""⟩])) := by
  have hquote : (Token.Kind.quote, "\"") ∈ Token.signs := by simp [Token.signs]
  have hclose : Lexes "\"".toList [⟨.quote, "\""⟩] := by
    simpa using Lexes.sign hquote (.done (List.forall_mem_nil _))
  have hbody := h.append hclose (by simpa using prolongs_quote)
  simpa using Lexes.sign hquote hbody

theorem exists_lexes_quoted {ws : List String} (h : ∀ w ∈ ws, IsWord w) :
    ∃ ss, Lexes ("\"" ++ " ".intercalate ws ++ "\"").toList ss ∧ IsQuoted ss (" ".intercalate ws) ∧
      ∀ s ∈ ss, s.kind ≠ .qualifier := by
  obtain ⟨ss, hss, hk, rfl⟩ := exists_lexes_words h
  refine ⟨⟨.quote, "\""⟩ :: (ss ++ [⟨.quote, "\""⟩]), lexes_quoted hss, .mk rfl hk rfl, ?_⟩
  rintro s hs
  simp only [List.mem_cons, List.mem_append, List.not_mem_nil, or_false] at hs
  rcases hs with rfl | hs | rfl
  · simp
  · rcases hk s hs with h | h <;> simp [h]
  · simp

theorem exists_lexes_sortKeys {ks : List SortKey} (hne : ks ≠ []) (h : ∀ k ∈ ks, Shape.Genuine ⟨.symbol, k.key⟩) :
    ∃ ss, Lexes (",".intercalate (ks.map SortKey.text)).toList ss ∧ IsKeys ss ks ∧
      ∀ s ∈ ss, s.kind ≠ .qualifier := by
  have hkey {k : SortKey} (h : Shape.Genuine ⟨.symbol, k.key⟩) :
      ∃ ss, Lexes k.text.toList ss ∧ IsKey ss k ∧ ∀ s ∈ ss, s.kind ≠ .qualifier := by
    obtain ⟨key, descending⟩ := k
    cases descending with
    | true =>
      refine ⟨[⟨.not, "~"⟩, ⟨.symbol, key⟩], ?_, .reversed rfl rfl, by simp⟩
      have hsign : (.not, "~") ∈ Token.signs := by simp [Token.signs]
      simpa [SortKey.text] using Lexes.sign hsign h.lexes
    | false =>
      refine ⟨[⟨.symbol, key⟩], ?_, .plain rfl, by simp⟩
      simpa [SortKey.text] using h.lexes
  induction ks with
  | nil => exact absurd rfl hne
  | cons k ks ih =>
    obtain ⟨ss, hss, hk, hn⟩ := hkey (h k (List.mem_cons_self ..))
    cases ks with
    | nil => exact ⟨ss, by simpa using hss, .one hk, hn⟩
    | cons k' ks =>
      obtain ⟨us, hus, hks, hn'⟩ := ih (by simp) fun k hk => h k (List.mem_cons_of_mem _ hk)
      have hcomma := Lexes.sign (show (.comma, ",") ∈ Token.signs by simp [Token.signs]) hus
      refine ⟨ss ++ ⟨.comma, ","⟩ :: us, ?_, .cons hk rfl hks, ?_⟩
      · rw [List.map_cons, List.map_cons, String.intercalate_cons_cons]
        simpa using hss.append hcomma (by simpa using prolongs_comma)
      · rintro s hs
        simp only [List.mem_append, List.mem_cons] at hs
        rcases hs with hs | rfl | hs
        · exact hn s hs
        · simp
        · exact hn' s hs

/-! ## Contents and leaves -/

/-- The text of a content is read as that content. -/
theorem exists_lexes_display {name : String} {c : Content} (h : IsLegible name c) :
    ∃ ss, Lexes c.display.toList ss ∧ IsContent name ss c ∧ ∀ s ∈ ss, s.kind ≠ .qualifier := by
  cases h with
  | @text ws hs hws =>
    rw [Content.display]
    split
    · obtain ⟨ss, hss, hq, hn⟩ := exists_lexes_quoted hws
      exact ⟨ss, hss, .quoted hs hq, hn⟩
    · rename_i hq
      generalize " ".intercalate ws = s at hq
      simp only [Content.needsQuotes, Bool.or_eq_true, Bool.not_eq_true', not_or, Bool.not_eq_false,
        Option.isSome_iff_ne_none, not_not] at hq ⊢
      have hg : Shape.Genuine ⟨.symbol, s⟩ := Token.isSymbol_iff.1 hq.2
      exact ⟨[⟨.symbol, s⟩], hg.lexes, .symbol hs rfl hq.1, by simp⟩
  | date hs hd =>
    obtain ⟨hg, hv⟩ := isPlain_date hd
    exact ⟨_, hg.lexes, .dates hs (.one hv), by simp⟩
  | dates hs hr =>
    obtain ⟨ss, hss, hspan, hn⟩ := exists_lexes_range isPlain_date (by decide) hr
    exact ⟨ss, hss, .dates hs hspan, hn⟩
  | number hs hp =>
    obtain ⟨hg, hv⟩ := isPlain_number hp
    exact ⟨_, hg.lexes, .numbers hs (.one hv), by simp⟩
  | numbers hs hr =>
    obtain ⟨ss, hss, hspan, hn⟩ := exists_lexes_range isPlain_number (by decide) hr
    exact ⟨ss, hss, .numbers hs hspan, hn⟩
  | sortKeys hs hne hks =>
    obtain ⟨ss, hss, hkeys, hn⟩ := exists_lexes_sortKeys hne hks
    exact ⟨ss, hss, .sortKeys hs hkeys, hn⟩

end Filter

end IssueQuery
