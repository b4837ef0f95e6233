/-
Saved filters after any run of changes. The texts that are kept name no other, so an expansion is
complete at once, and a change concerns nothing but its own name.
-/
import IssueQuery.Proofs.Filter.RoundTrip
import IssueQuery.Proofs.Project.Hygiene

namespace IssueQuery

open Token (Shape Lexes)

/-! ## Texts of filters -/

/-- No token holds an at sign. -/
theorem Token.Lexes.at_notMem {cs : List Char} {ss : List Shape} (h : Lexes cs ss) : '@' ∉ cs := by
  intro hat
  obtain ⟨a, b, rfl⟩ := List.append_of_mem hat
  have hblank : Text.isBlank '@' = false := by decide
  have hbreaks : Breaks ('@' :: b) := by
    refine ⟨by simpa using (by decide +kernel : prolongs '@' = false), ?_⟩
    rw [Text.trimStart_cons hblank]
    simp
  obtain ⟨-, ts, -, hts, -⟩ := h.of_append hbreaks
  have hnone : firstMatch? ('@' :: b) = none := firstMatch?_eq_none b (by decide +kernel) (by decide)
  generalize hcs : '@' :: b = cs at hts hnone
  cases hts with
  | done hall =>
    subst hcs
    rw [hall '@' (List.mem_cons_self ..)] at hblank
    cases hblank
  | @token blanks text rest kind ss hall hm =>
    cases blanks with
    | nil =>
      rw [List.nil_append] at hnone
      rw [hm] at hnone
      cases hnone
    | cons c blanks =>
      obtain ⟨rfl, -⟩ := List.cons.inj hcs
      rw [hall '@' (List.mem_cons_self ..)] at hblank
      cases hblank

/-- The text of a filter that was read holds no at sign, and is not blank unless it is empty. -/
theorem Filter.text_of_parse {s : String} {f : Filter} (h : parse s = .ok f) :
    '@' ∉ f.text.toList ∧ (f.text = "" ∨ (Text.trim f.text.toList).isEmpty = false) := by
  obtain ⟨ss, hss, hw⟩ := parse_eq_ok_iff.1 h
  cases hw with
  | empty =>
    have hempty : Filter.empty.text = "" := rfl
    rw [hempty]
    exact ⟨by simp, .inl rfl⟩
  | expression hr =>
    obtain ⟨us, hus, hspells⟩ := exists_spells (legible_of_reads hss hr)
    refine ⟨hus.at_notMem, .inr ?_⟩
    -- a blank text has no tokens
    rw [Bool.eq_false_iff, ne_eq, trim_isEmpty_iff, ← Token.lexes_nil_iff]
    exact fun hnil => hspells.ne_nil (hus.unique hnil)

namespace SavedFilters

/-! ## Entries -/

section Entries

variable {name text n : String} {es : List (String × String)}

theorem mem_insertEntry {e : String × String} (h : e ∈ insertEntry name text es) : e = (name, text) ∨ e ∈ es := by
  induction es with
  | nil => exact .inl (List.mem_singleton.1 h)
  | cons e' es ih =>
    obtain ⟨n, t⟩ := e'
    rw [insertEntry] at h
    split at h
    · exact List.mem_cons.1 h
    · split at h
      · exact (List.mem_cons.1 h).imp_right (List.mem_cons_of_mem _)
      · rcases List.mem_cons.1 h with rfl | h
        · exact .inr (List.mem_cons_self ..)
        · exact (ih h).imp_right (List.mem_cons_of_mem _)

theorem lookup_cons (n n' t : String) (es : List (String × String)) :
    ((n', t) :: es).lookup n = if n = n' then some t else es.lookup n := by
  rw [List.lookup_cons]
  by_cases h : n = n'
  · simp [h]
  · rw [beq_eq_false_iff_ne.2 h, if_neg h]

theorem lookup_insertEntry : (insertEntry name text es).lookup n = if n = name then some text else es.lookup n := by
  induction es with
  | nil => rw [insertEntry, lookup_cons]
  | cons e es ih =>
    obtain ⟨n', t⟩ := e
    rw [insertEntry]
    split
    · rw [lookup_cons]
    · split
      · rename_i heq
        subst heq
        rw [lookup_cons, lookup_cons]
        split <;> rfl
      · rename_i hne
        rw [lookup_cons, ih, lookup_cons]
        by_cases h : n = name
        · rw [if_pos h, if_pos h, if_neg (h ▸ hne)]
        · rw [if_neg h, if_neg h]

theorem lookup_filter_ne : (es.filter fun e => e.1 != name).lookup n = if n = name then none else es.lookup n := by
  induction es with
  | nil => split <;> rfl
  | cons e es ih =>
    obtain ⟨n', t⟩ := e
    rw [List.filter_cons]
    by_cases h' : n' = name
    · subst h'
      rw [if_neg (by simp), ih, lookup_cons]
      split <;> rfl
    · rw [if_pos (by simpa using h'), lookup_cons, ih, lookup_cons]
      by_cases h : n = name
      · rw [if_pos h, if_pos h, if_neg (h ▸ Ne.symm h')]
      · rw [if_neg h, if_neg h]

end Entries

section Store

variable {s : SavedFilters}

theorem find?_insert (name text n : String) :
    (s.insert name text).find? n = if n = name then some text else s.find? n := lookup_insertEntry

theorem find?_erase (name n : String) : (s.erase name).find? n = if n = name then none else s.find? n :=
  lookup_filter_ne

/-! ## Changes -/

theorem save_eq_ok_iff {name text : String} {force : Bool} {r : String × SavedFilters} :
    s.save name text force = .ok r ↔ ∃ expanded f, s.expand text = .ok expanded ∧ Filter.parse expanded = .ok f ∧
      (∃ scope, Scope.ofFilter? f = .ok scope) ∧ isValidName name = true ∧
        (force = false → s.find? name = none) ∧ r = (f.text, s.insert name f.text) := by
  have hreturn {x : String × SavedFilters} : (pure x : Except ProjectError _) = .ok r ↔ r = x :=
    ⟨fun h => (Except.ok.inj h).symm, fun h => congrArg _ h.symm⟩
  simp only [save, bind_eq_ok_iff, parseFilter, scopeOf, mapError_eq_ok_iff, guard_eq_ok_iff, hreturn]
  simp

/-- What a change can do: it fails and leaves all filters, or it keeps the text of a filter that was read,
or it takes one away. -/
theorem perform_cases (s : SavedFilters) (e : Edit) :
    ((∃ error, (s.perform e).1 = .error error) ∧ (s.perform e).2 = s) ∨
    (∃ name text force expanded f, e = .add name text force ∧ s.expand text = .ok expanded ∧
      Filter.parse expanded = .ok f ∧ (∃ scope, Scope.ofFilter? f = .ok scope) ∧ isValidName name = true ∧
        s.perform e = (.ok f.text, s.insert name f.text)) ∨
    ∃ name text, e = .remove name ∧ s.find? name = some text ∧ s.perform e = (.ok text, s.erase name) := by
  unfold perform
  cases hchange : s.change e with
  | error error => exact .inl ⟨⟨error, rfl⟩, rfl⟩
  | ok r =>
    refine .inr ?_
    cases e with
    | add name text force =>
      obtain ⟨expanded, f, hexpanded, hf, hscope, hname, -, rfl⟩ := save_eq_ok_iff.1 hchange
      exact .inl ⟨name, text, force, expanded, f, rfl, hexpanded, hf, hscope, hname, rfl⟩
    | remove name =>
      rw [change, remove] at hchange
      cases hfind : s.find? name with
      | none =>
        rw [hfind] at hchange
        cases hchange
      | some text =>
        rw [hfind] at hchange
        cases hchange
        exact .inr ⟨name, text, rfl, hfind, rfl⟩

/-- A change concerns nothing but its own name. -/
theorem find?_perform {e : Edit} {n : String} (h : n ≠ e.name) : (s.perform e).2.find? n = s.find? n := by
  obtain ⟨-, hsame⟩ | ⟨name, text, force, expanded, f, rfl, -, -, -, -, hperform⟩ | ⟨name, text, rfl, -, hperform⟩ :=
    s.perform_cases e
  · rw [hsame]
  · rw [hperform, find?_insert]
    exact if_neg h
  · rw [hperform, find?_erase]
    exact if_neg h

theorem perform_eq_self {e : Edit} {error : ProjectError} (h : (s.perform e).1 = .error error) :
    (s.perform e).2 = s := by
  obtain ⟨-, hsame⟩ | ⟨_, _, _, _, _, _, _, _, _, _, hperform⟩ | ⟨_, _, _, _, hperform⟩ := s.perform_cases e
  · exact hsame
  · rw [hperform] at h
    cases h
  · rw [hperform] at h
    cases h

/-! ## What is kept -/

/-- The names are valid, no text holds an at sign, and none is blank unless it is empty. -/
structure WellKept (s : SavedFilters) : Prop where
  name : ∀ e ∈ s.entries, isValidName e.1 = true
  noAt : ∀ e ∈ s.entries, '@' ∉ e.2.toList
  notBlank : ∀ e ∈ s.entries, e.2 = "" ∨ (Text.trim e.2.toList).isEmpty = false

theorem wellKept_empty : empty.WellKept :=
  ⟨List.forall_mem_nil _, List.forall_mem_nil _, List.forall_mem_nil _⟩

theorem WellKept.insert (h : s.WellKept) {name text : String} (hname : isValidName name = true)
    (hat : '@' ∉ text.toList) (hblank : text = "" ∨ (Text.trim text.toList).isEmpty = false) :
    (s.insert name text).WellKept where
  name e he := by
    rcases mem_insertEntry he with rfl | he
    · exact hname
    · exact h.name e he
  noAt e he := by
    rcases mem_insertEntry he with rfl | he
    · exact hat
    · exact h.noAt e he
  notBlank e he := by
    rcases mem_insertEntry he with rfl | he
    · exact hblank
    · exact h.notBlank e he

theorem WellKept.erase (h : s.WellKept) (name : String) : (s.erase name).WellKept where
  name e he := h.name e (List.mem_of_mem_filter he)
  noAt e he := h.noAt e (List.mem_of_mem_filter he)
  notBlank e he := h.notBlank e (List.mem_of_mem_filter he)

theorem WellKept.perform (h : s.WellKept) (e : Edit) : (s.perform e).2.WellKept := by
  obtain ⟨-, hsame⟩ | ⟨name, text, force, expanded, f, -, -, hf, -, hname, hperform⟩ | ⟨name, text, -, -, hperform⟩ :=
    s.perform_cases e
  · rw [hsame]
    exact h
  · rw [hperform]
    obtain ⟨hat, hblank⟩ := Filter.text_of_parse hf
    exact h.insert hname hat hblank
  · rw [hperform]
    exact h.erase name

/-- The filters after a run of changes. -/
def performAll (s : SavedFilters) (es : List Edit) : SavedFilters := es.foldl (fun s e => (s.perform e).2) s

theorem performAll_concat (s : SavedFilters) (es : List Edit) (e : Edit) :
    s.performAll (es ++ [e]) = ((s.performAll es).perform e).2 := by
  rw [performAll, List.foldl_append]
  rfl

theorem WellKept.performAll (h : s.WellKept) (es : List Edit) : (s.performAll es).WellKept := by
  induction es generalizing s with
  | nil => exact h
  | cons e es ih => exact ih (h.perform e)

/-! ## Expansions -/

/-- The characters on the right are those on the left with each reference replaced. -/
inductive Expands (s : SavedFilters) : List Char → List Char → Prop
  | nil : Expands s [] []
  | character {c : Char} {cs out : List Char} : c ≠ '@' → Expands s cs out → Expands s (c :: cs) (c :: out)
  | reference {cs replaced out : List Char} : s.reference (cs.takeWhile isNameChar) = .ok replaced →
    Expands s (cs.dropWhile isNameChar) out → Expands s ('@' :: cs) (replaced ++ out)

theorem expandChars_eq_ok_iff {cs out : List Char} : s.expandChars cs = .ok out ↔ Expands s cs out := by
  constructor
  · intro h
    fun_induction expandChars s cs generalizing out with
    | case1 =>
      cases h
      exact .nil
    | case2 c cs hat ih =>
      obtain rfl : c = '@' := by simpa using hat
      obtain ⟨replaced, hr, h⟩ := bind_eq_ok_iff.1 h
      obtain ⟨out', hout, h⟩ := bind_eq_ok_iff.1 h
      cases h
      exact .reference hr (ih hout)
    | case3 c cs hat ih =>
      obtain ⟨out', hout, h⟩ := bind_eq_ok_iff.1 h
      cases h
      exact .character (by simpa using hat) (ih hout)
  · intro h
    induction h with
    | nil => rw [expandChars]
    | character hc _ ih =>
      rw [expandChars_character fun h => hc h.1, ih]
      rfl
    | reference hr _ ih =>
      rw [expandChars_at, hr, ih]
      rfl

theorem expand_eq_ok_iff {input out : String} : s.expand input = .ok out ↔ Expands s input.toList out.toList := by
  rw [← expandChars_eq_ok_iff, expand]
  cases s.expandChars input.toList with
  | error e => simp [Except.map]
  | ok cs => rw [Except.map, Except.ok.injEq, Except.ok.injEq, ← String.toList_inj, String.toList_ofList]

/-- What a reference stands for. -/
theorem reference_cases {name replaced : List Char} (h : s.reference name = .ok replaced) :
    (name = [] ∧ replaced = ['@']) ∨ ∃ text, s.find? (String.ofList name) = some text ∧
      (replaced = [] ∨ replaced = '(' :: (text.toList ++ [')'])) := by
  rw [reference] at h
  split at h
  · rename_i hname
    exact .inl ⟨List.isEmpty_iff.1 hname, (Except.ok.inj h).symm⟩
  · split at h
    · cases h
    · rename_i text hfind
      obtain rfl := Except.ok.inj h
      refine .inr ⟨text, hfind, ?_⟩
      split
      · exact .inl rfl
      · exact .inr rfl

/-- No at sign with the character of a name behind it. -/
def NoReference (cs : List Char) : Prop := cs.IsChain fun a b => a = '@' → isNameChar b = false

theorem noReference_append {as bs : List Char} (ha : '@' ∉ as) (hb : NoReference bs) : NoReference (as ++ bs) := by
  induction as with
  | nil => exact hb
  | cons a as ih =>
    rw [List.mem_cons, not_or] at ha
    exact List.isChain_cons.2 ⟨fun _ _ heq => absurd heq.symm ha.1, ih ha.2⟩

theorem head_dropWhile {p : Char → Bool} {cs : List Char} : ∀ c ∈ (cs.dropWhile p).head?, p c = false := by
  intro c hc
  have h := List.head?_dropWhile_not p cs
  rw [Option.mem_def.1 hc] at h
  simpa using h

theorem text_mem {name text : String} (h : s.find? name = some text) : (name, text) ∈ s.entries := by
  obtain ⟨before, after, hentries, -⟩ := List.lookup_eq_some_iff.1 h
  rw [hentries]
  exact List.mem_append_right _ (List.mem_cons_self ..)

/-- An expansion holds no reference, and begins with the character of a name only if the text does. -/
theorem WellKept.noReference (hs : s.WellKept) {cs out : List Char} (h : Expands s cs out) :
    NoReference out ∧ ((∀ c ∈ cs.head?, isNameChar c = false) → ∀ c ∈ out.head?, isNameChar c = false) := by
  induction h with
  | nil => exact ⟨List.IsChain.nil, fun h => h⟩
  | @character c cs out hc _ ih =>
    exact ⟨List.isChain_cons.2 ⟨fun _ _ heq => absurd heq hc, ih.1⟩, fun h => h⟩
  | @reference cs replaced out hr _ ih =>
    obtain ⟨hout, hhead⟩ := ih
    -- no character of a name stands behind a name, so none comes first in the expansion of the rest
    have hhead := hhead head_dropWhile
    obtain ⟨-, rfl⟩ | ⟨text, hfind, rfl | rfl⟩ := reference_cases hr
    · refine ⟨List.isChain_cons.2 ⟨fun c hc _ => hhead c hc, hout⟩, fun _ => ?_⟩
      simpa using (by decide : isNameChar '@' = false)
    · exact ⟨hout, fun _ => hhead⟩
    · have hat : '@' ∉ '(' :: (text.toList ++ [')']) := by simpa using hs.noAt _ (text_mem hfind)
      refine ⟨noReference_append hat hout, fun _ => ?_⟩
      simpa using (by decide : isNameChar '(' = false)

/-- A text without references is its own expansion. -/
theorem expandChars_of_noReference {cs : List Char} (h : NoReference cs) : s.expandChars cs = .ok cs := by
  induction cs with
  | nil => rw [expandChars]
  | cons c cs ih =>
    obtain ⟨hhead, hcs⟩ := List.isChain_cons.1 h
    have hc : ¬ (c = '@' ∧ cs.takeWhile isNameChar ≠ []) := by
      rintro ⟨hat, hne⟩
      cases cs with
      | nil => exact hne rfl
      | cons d cs => exact hne (List.takeWhile_cons_of_neg (by simpa using hhead d rfl hat))
    rw [expandChars_character hc, ih hcs]
    rfl

/-- Only the texts that are referred to matter. -/
theorem expandChars_congr {s' : SavedFilters} {cs : List Char}
    (h : ∀ name ∈ names (pieces cs), s'.find? name = s.find? name) : s'.expandChars cs = s.expandChars cs := by
  fun_induction pieces cs with
  | case1 => rw [expandChars, expandChars]
  | case2 c cs hc hlt ih =>
    obtain ⟨rfl, -⟩ := hc
    obtain ⟨hhead, htail⟩ := List.forall_mem_cons.1 h
    rw [expandChars_at, expandChars_at, ih htail, reference, hhead, ← reference]
  | case3 c cs hc ih => rw [expandChars_character hc, expandChars_character hc, ih h]

/-- After any changes to no filters at all, the names that are kept are valid, and the texts hold no at sign and
are not blank unless empty; a change that fails leaves all as it was; what comes of an expansion holds no
reference and expands to itself; and a change leaves every expansion in which its name is not referred to. -/
theorem performAll_empty (es : List Edit) :
    (empty.performAll es).WellKept ∧
      (∀ input out, (empty.performAll es).expand input = .ok out →
        (∀ c, isNameChar c = true → ¬ ['@', c] <:+: out.toList) ∧ (empty.performAll es).expand out = .ok out) ∧
      (∀ e error, ((empty.performAll es).perform e).1 = .error error →
        ((empty.performAll es).perform e).2 = empty.performAll es) ∧
      ∀ e input, e.name ∉ references input →
        ((empty.performAll es).perform e).2.expand input = (empty.performAll es).expand input := by
  have hkept := wellKept_empty.performAll es
  refine ⟨hkept, fun input out h => ?_, fun _ _ => perform_eq_self, fun e input h => ?_⟩
  · obtain ⟨hno, -⟩ := hkept.noReference (expand_eq_ok_iff.1 h)
    refine ⟨fun c hc hin => ?_, expand_eq_ok_iff.2 (expandChars_eq_ok_iff.1 (expandChars_of_noReference hno))⟩
    obtain ⟨before, after, hout⟩ := hin
    rw [← hout, NoReference, List.append_assoc] at hno
    have := List.isChain_iff_forall_rel_of_append_cons_cons.1 hno rfl rfl
    rw [hc] at this
    cases this
  · have hfind : ∀ name ∈ references input,
        ((empty.performAll es).perform e).2.find? name = (empty.performAll es).find? name := by
      rintro name hname
      exact find?_perform fun heq => h (heq ▸ hname)
    rw [expand, expand, expandChars_congr hfind]

/-- Two filters, a name that is taken, a replacement by way of the other filter, and a name that is not there. -/
theorem performAll_empty_of_five : ∃ s, s = empty.performAll
      [.add "bug" "label:bug" false, .add "mine" "@bug OR author:ada" false, .add "bug" "label:defect" false,
        .add "bug" "!@mine" true, .remove "nobody"] ∧
    s.entries = [("bug", "NOT (label:bug OR author:ada)"), ("mine", "(label:bug OR author:ada)")] ∧ s.WellKept ∧
    s.expand "@@mine" = .ok "@((label:bug OR author:ada))" ∧
    s.expand "@((label:bug OR author:ada))" = .ok "@((label:bug OR author:ada))" ∧
    (s.perform (.remove "nobody")).2 = s ∧ (s.perform (.remove "bug")).2.expand "@@mine" = s.expand "@@mine" := by
  obtain ⟨hkept, hexpand, hfails, hothers⟩ := performAll_empty
    [.add "bug" "label:bug" false, .add "mine" "@bug OR author:ada" false, .add "bug" "label:defect" false,
      .add "bug" "!@mine" true, .remove "nobody"]
  refine ⟨_, rfl, ?_⟩
  have hrun : empty.performAll [.add "bug" "label:bug" false, .add "mine" "@bug OR author:ada" false,
      .add "bug" "label:defect" false, .add "bug" "!@mine" true, .remove "nobody"] =
      ⟨[("bug", "NOT (label:bug OR author:ada)"), ("mine", "(label:bug OR author:ada)")]⟩ := by decide +kernel
  rw [hrun] at hkept hexpand hfails hothers ⊢
  obtain ⟨-, hagain⟩ := hexpand "@@mine" "@((label:bug OR author:ada))" (eq_ok_of_toOption (by decide +kernel))
  have hnobody := hfails (.remove "nobody") (.savedFilterNotFound "nobody") rfl
  have hmine := hothers (.remove "bug") "@@mine" (by decide +kernel)
  exact ⟨rfl, hkept, eq_ok_of_toOption (by decide +kernel), hagain, hnobody, hmine⟩

end Store

end SavedFilters

end IssueQuery
