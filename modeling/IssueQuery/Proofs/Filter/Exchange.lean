/-
Phrases between brackets that are exchanged for others. The parser reads the tokens around them as it
did before, so what it finds differs in the filters of these phrases alone: no operator or quote
around a bracket takes anything from within.
-/
import IssueQuery.Proofs.Filter.Reads

namespace IssueQuery.Filter

open Token (Shape)
open Qualifier (Content)

/-! ## Tokens with phrases exchanged -/

/-- The same tokens, none of whose texts is among `zs`, but for phrases between brackets: there both
have a whole expression, and `T` relates the filters of the two. -/
inductive Exchanged (T : Filter → Filter → Prop) (zs : List String) : List Shape → List Shape → Prop
  | nil : Exchanged T zs [] []
  | same {s : Shape} {ss us : List Shape} :
    s.text ∉ zs → Exchanged T zs ss us → Exchanged T zs (s :: ss) (s :: us)
  | phrase {opening closing : Shape} {xs ys ss us : List Shape} {f g : Filter} :
    opening.kind = .openBracket → closing.kind = .closeBracket → Reads (.expression 0) xs f [] →
    Reads (.expression 0) ys g [] → T f g → Exchanged T zs ss us →
    Exchanged T zs (opening :: (xs ++ closing :: ss)) (opening :: (ys ++ closing :: us))

/-- The same filter, none of whose leaves is a keyword among `zs`, but for parts that `T` relates. -/
inductive Replaced (T : Filter → Filter → Prop) (zs : List String) : Filter → Filter → Prop
  | leaf {q : Qualifier} : (∀ z ∈ zs, q ≠ .keyword z) → Replaced T zs (leaf q) (leaf q)
  | part {f g : Filter} : T f g → Replaced T zs f g
  | and {f g f' g' : Filter} : Replaced T zs f f' → Replaced T zs g g' → Replaced T zs (and f g) (and f' g')
  | or {f g f' g' : Filter} : Replaced T zs f f' → Replaced T zs g g' → Replaced T zs (or f g) (or f' g')
  | not {f f' : Filter} : Replaced T zs f f' → Replaced T zs (not f) (not f')

/-- The same task, with replacements in the filter it starts from. -/
inductive Task.Replaced (T : Filter → Filter → Prop) (zs : List String) : Task → Task → Prop
  | operand : Task.Replaced T zs .operand .operand
  | expression {level : Nat} : Task.Replaced T zs (.expression level) (.expression level)
  | chain {level : Nat} {left left' : Filter} :
    Filter.Replaced T zs left left' → Task.Replaced T zs (.chain level left) (.chain level left')

section Exchange

variable {T : Filter → Filter → Prop} {zs : List String} {ss us : List Shape}

theorem Exchanged.append_left {ws : List Shape} (hws : ∀ w ∈ ws, w.text ∉ zs) (h : Exchanged T zs ss us) :
    Exchanged T zs (ws ++ ss) (ws ++ us) := by
  induction ws with
  | nil => exact h
  | cons w ws ih =>
    exact .same (hws w (List.mem_cons_self ..)) (ih fun w hw => hws w (List.mem_cons_of_mem _ hw))

/-- Both begin with the same token, or neither begins. -/
theorem Exchanged.head? (h : Exchanged T zs ss us) : us.head? = ss.head? := by
  cases h <;> rfl

theorem Exchanged.settled (h : Exchanged T zs ss us) (hs : Settled ss) : Settled us := by
  unfold Settled Avoids
  rw [h.head?]
  exact hs

theorem Exchanged.bindsWithin (h : Exchanged T zs ss us) {level : Nat} (hb : BindsWithin level ss) :
    BindsWithin level us := by
  unfold BindsWithin
  rw [h.head?]
  exact hb

theorem Exchanged.of_cons {s : Shape} (h : Exchanged T zs (s :: ss) us) (hk : s.kind ≠ .openBracket) :
    ∃ us', us = s :: us' ∧ s.text ∉ zs ∧ Exchanged T zs ss us' := by
  cases h with
  | same hs h => exact ⟨_, rfl, hs, h⟩
  | phrase ho => exact absurd ho hk

/-- Tokens without an opening bracket among them are the same after the exchange. -/
theorem Exchanged.of_append {ws : List Shape} (hws : ∀ w ∈ ws, w.kind ≠ .openBracket)
    (h : Exchanged T zs (ws ++ ss) us) :
    ∃ us', us = ws ++ us' ∧ (∀ w ∈ ws, w.text ∉ zs) ∧ Exchanged T zs ss us' := by
  induction ws generalizing us with
  | nil => exact ⟨us, rfl, List.forall_mem_nil _, h⟩
  | cons w ws ih =>
    obtain ⟨us', rfl, hw, h⟩ := h.of_cons (hws w (List.mem_cons_self ..))
    obtain ⟨us', rfl, hrest, h⟩ := ih (fun w hw => hws w (List.mem_cons_of_mem _ hw)) h
    exact ⟨us', rfl, List.forall_mem_cons.2 ⟨hw, hrest⟩, h⟩

end Exchange

/-! ## Leaves outside of the phrases -/

section Leaves

variable {zs : List String} {us : List Shape} {s name : String} {c : Content} {f : Filter}

/-- A quoted text is a keyword only if one of its words is. -/
theorem IsQuoted.not_mem (hzs : ∀ z ∈ zs, Token.isSymbol z = true) (h : IsQuoted us s)
    (hus : ∀ u ∈ us, u.text ∉ zs) : s ∉ zs := by
  intro hmem
  have hsymbol := Token.isSymbol_of_firstMatch? (Token.isSymbol_iff.1 (hzs s hmem))
  -- the empty text is no symbol, nor is one with a space between two words
  cases h with
  | @mk opening closing words _ _ _ =>
    match words, hmem, hsymbol, hus with
    | [], _, hsymbol, _ => cases hsymbol
    | [w], hmem, _, hus =>
      rw [List.map_singleton, String.intercalate_singleton] at hmem
      exact hus w (by simp) hmem
    | w :: w' :: ws, _, hsymbol, _ =>
      have := hsymbol.isBlank_eq_false ' ' (by simp [String.intercalate_cons_cons])
      cases this

theorem IsContent.ne_text (hzs : ∀ z ∈ zs, Token.isSymbol z = true) (h : IsContent name us c)
    (hus : ∀ u ∈ us, u.text ∉ zs) : ∀ z ∈ zs, c ≠ .text z := by
  rintro _ hz rfl
  cases h with
  | dates _ hd => cases hd
  | numbers _ hn => cases hn
  | quoted _ hq => exact hq.not_mem hzs hus hz
  | symbol => exact hus _ (List.mem_singleton_self _) hz

theorem keyword_inj {s s' : String} (h : Qualifier.keyword s = .keyword s') : s = s' := by
  cases h
  rfl

variable {T : Filter → Filter → Prop}

theorem replaced_keyword (hs : s ∉ zs) : Replaced T zs (leaf (.keyword s)) (leaf (.keyword s)) :=
  .leaf fun _ hz h => hs (keyword_inj h ▸ hz)

theorem replaced_named (hc : ∀ z ∈ zs, c ≠ .text z) : Replaced T zs (leaf (.named name c)) (leaf (.named name c)) :=
  .leaf fun z hz h => hc z hz (Qualifier.named.inj h).2

theorem IsChoice.replaced (hzs : ∀ z ∈ zs, Token.isSymbol z = true) (h : IsChoice name us f)
    (hus : ∀ u ∈ us, u.text ∉ zs) : Replaced T zs f f := by
  induction h with
  | one hc => exact replaced_named (hc.ne_text hzs hus)
  | or _ _ hc ih =>
    rw [List.forall_mem_append, List.forall_mem_cons] at hus
    exact .or (ih hus.1) (replaced_named (hc.ne_text hzs hus.2.2))

end Leaves

/-! ## Reading after an exchange -/

section Reading

variable {T : Filter → Filter → Prop} {zs : List String} {ss us rest : List Shape} {f : Filter}

/-- A phrase between brackets is read as a whole, whatever follows it. -/
theorem Reads.phrase {opening closing : Shape} {xs : List Shape} (ho : opening.kind = .openBracket)
    (hx : Reads (.expression 0) xs f []) (hc : closing.kind = .closeBracket) (tail : List Shape) :
    Reads .operand (opening :: (xs ++ closing :: tail)) f tail :=
  .brackets ho (hx.append_close hc tail) hc

/-- The parser reads exchanged tokens as it read the others, up to the filters of the phrases. -/
theorem Reads.exchange (hzs : ∀ z ∈ zs, Token.isSymbol z = true) {task task' : Task} (h : Reads task ss f rest)
    (hx : Exchanged T zs ss us) (ht : task.Replaced T zs task') :
    ∃ g rest', Reads task' us g rest' ∧ Replaced T zs f g ∧ Exchanged T zs rest rest' := by
  -- only a step that opens a bracket can meet a phrase
  induction h generalizing us task' with
  | symbol hk =>
    cases ht
    obtain ⟨us, rfl, hs, hx⟩ := hx.of_cons (by simp [hk])
    exact ⟨_, us, .symbol hk, replaced_keyword hs, hx⟩
  | quoted hq =>
    cases ht
    obtain ⟨us, rfl, hws, hx⟩ := hx.of_append fun w hw hk => absurd (hk ▸ hq.kind_mem w hw) (by decide)
    exact ⟨_, us, .quoted hq, replaced_keyword (hq.not_mem hzs hws), hx⟩
  | qualifier hk hc hs =>
    cases ht
    obtain ⟨us, rfl, -, hx⟩ := hx.of_cons (by simp [hk])
    obtain ⟨us, rfl, hws, hx⟩ := hx.of_append fun w hw hk => absurd (hk ▸ hc.kind_mem w hw) (by decide)
    exact ⟨_, us, .qualifier hk hc (hx.settled hs), hc.replaced hzs hws, hx⟩
  | not hk _ ih =>
    cases ht
    obtain ⟨us, rfl, -, hx⟩ := hx.of_cons (by simp [hk])
    obtain ⟨g, rest', hg, hr, hx⟩ := ih hx .expression
    exact ⟨_, rest', .not hk hg, .not hr, hx⟩
  | brackets ho hin hc ih =>
    cases ht
    cases hx with
    | same _ hx =>
      obtain ⟨g, rest', hg, hr, hx⟩ := ih hx .expression
      obtain ⟨rest', rfl, -, hx⟩ := hx.of_cons (by simp [hc])
      exact ⟨g, rest', .brackets ho hg hc, hr, hx⟩
    | phrase ho' hc' hxs hys hT hx =>
      -- the phrase is all that stands between the brackets
      obtain ⟨rfl, hrest⟩ := hin.unique (hxs.append_close hc' _)
      obtain ⟨rfl, rfl⟩ := List.cons.inj hrest
      exact ⟨_, _, Reads.phrase ho hys hc _, .part hT, hx⟩
  | expression _ _ ih1 ih2 =>
    cases ht
    obtain ⟨g, us, hg, hr, hx⟩ := ih1 hx .operand
    obtain ⟨g', rest', hg', hr', hx⟩ := ih2 hx (.chain hr)
    exact ⟨g', rest', .expression hg hg', hr', hx⟩
  | stop hb =>
    cases ht with
    | chain hr => exact ⟨_, us, .stop (hx.bindsWithin hb), hr, hx⟩
  | and hk hl _ _ ih1 ih2 =>
    cases ht with
    | chain hleft =>
      obtain ⟨us, rfl, -, hx⟩ := hx.of_cons (by simp [hk])
      obtain ⟨g, us, hg, hr, hx⟩ := ih1 hx .expression
      obtain ⟨g', rest', hg', hr', hx⟩ := ih2 hx (.chain (.and hleft hr))
      exact ⟨g', rest', .and hk hl hg hg', hr', hx⟩
  | or hk hl _ _ ih1 ih2 =>
    cases ht with
    | chain hleft =>
      obtain ⟨us, rfl, -, hx⟩ := hx.of_cons (by simp [hk])
      obtain ⟨g, us, hg, hr, hx⟩ := ih1 hx .expression
      obtain ⟨g', rest', hg', hr', hx⟩ := ih2 hx (.chain (.or hleft hr))
      exact ⟨g', rest', .or hk hl hg hg', hr', hx⟩
  | @juxtaposed level left f g s ss vs rest hand hor hl _ _ ih1 ih2 =>
    cases ht with
    | chain hleft =>
      obtain ⟨us', rfl⟩ : ∃ us', us = s :: us' := by cases hx <;> exact ⟨_, rfl⟩
      obtain ⟨g, us, hg, hr, hx⟩ := ih1 hx .expression
      obtain ⟨g', rest', hg', hr', hx⟩ := ih2 hx (.chain (.and hleft hr))
      exact ⟨g', rest', .juxtaposed hand hor hl hg hg', hr', hx⟩

theorem ReadsWhole.exchange (hzs : ∀ z ∈ zs, Token.isSymbol z = true) (h : ReadsWhole ss f)
    (hx : Exchanged T zs ss us) : ∃ g, ReadsWhole us g ∧ Replaced T zs f g := by
  cases h with
  | empty =>
    cases hx
    exact ⟨Filter.empty, .empty, .leaf fun z _ hq => Qualifier.noConfusion hq⟩
  | expression h =>
    obtain ⟨g, rest, hg, hr, hx⟩ := h.exchange hzs hx .expression
    cases hx
    exact ⟨g, .expression hg, hr⟩

end Reading

/-! ## Filling in -/

/-- The filter with those keywords that have a filter in the list replaced by it. -/
def fill (ps : List (String × Filter)) : Filter → Filter
  | leaf q => ((ps.find? fun p => q = .keyword p.1).map Prod.snd).getD (leaf q)
  | and left right => and (left.fill ps) (right.fill ps)
  | or left right => or (left.fill ps) (right.fill ps)
  | not inner => not (inner.fill ps)

/-- The filter is that of the keyword in the list. -/
def Fills (ps : List (String × Filter)) (f g : Filter) : Prop := ∃ z, f = leaf (.keyword z) ∧ (z, g) ∈ ps

theorem fill_keyword {ps : List (String × Filter)} (hps : (ps.map Prod.fst).Nodup) {z : String} {g : Filter}
    (h : (z, g) ∈ ps) : (leaf (.keyword z)).fill ps = g := by
  cases hf : ps.find? fun p => .keyword z = Qualifier.keyword p.1 with
  | none => simpa using List.find?_eq_none.1 hf (z, g) h
  | some p =>
    obtain rfl : z = p.1 := keyword_inj (by simpa using List.find?_some hf)
    have := List.inj_on_of_nodup_map hps (List.mem_of_find?_eq_some hf) h rfl
    rw [fill, hf, this]
    rfl

theorem Replaced.eq_fill {ps : List (String × Filter)} (hps : (ps.map Prod.fst).Nodup) {f g : Filter}
    (h : Replaced (Fills ps) (ps.map Prod.fst) f g) : g = f.fill ps := by
  induction h with
  | @leaf q hq =>
    have hf : (ps.find? fun p => q = .keyword p.1) = none :=
      List.find?_eq_none.2 fun p hp => by simpa using hq p.1 (List.mem_map_of_mem hp)
    rw [fill, hf]
    rfl
  | part hT =>
    obtain ⟨z, rfl, hz⟩ := hT
    exact (fill_keyword hps hz).symm
  | and _ _ ihf ihg => rw [fill, ← ihf, ← ihg]
  | or _ _ ihf ihg => rw [fill, ← ihf, ← ihg]
  | not _ ih => rw [fill, ← ih]

end IssueQuery.Filter
