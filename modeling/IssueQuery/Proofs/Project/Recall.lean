/-
Saved filters that are called by their names. What a name stands for is the text of the filter that was
given, between brackets. It is read unless a keyword of the filter has a content that is neither a text
nor a number, and then by another filter with the same meaning.
-/
import IssueQuery.Proofs.Filter.Placement
import IssueQuery.Proofs.Project.Store

namespace IssueQuery

/-! ## Texts of filters between brackets -/

namespace Filter

variable {f : Filter}

/-- Between brackets the text of a filter is read as it is alone. -/
theorem parse_bracketed_eq_bare (h : ∀ q ∈ f.qualifiers, q.Legible) (hk : ∀ q ∈ f.qualifiers, q.HasKeywordText) :
    parse ("(" ++ f.text ++ ")") = .ok f.bare.reread := by
  obtain ⟨us, ts, hshows⟩ := exists_shows h
  have hrow := hshows.row hk
  have hread := hrow.tail.isOperand_bracketed hrow.operand [] (avoids_nil _)
  rw [List.append_nil] at hread
  exact parse_eq_ok_iff.2 ⟨_, by simpa using lexes_bracketed hshows.lexes,
    .expression (.expression hread (.stop (bindsWithin_nil 0)))⟩

/-- Between brackets the text of a filter is read only if its keywords have texts to search for. -/
theorem hasKeywordText_of_parse_bracketed (h : ∀ q ∈ f.qualifiers, q.Legible) {g : Filter}
    (hg : parse ("(" ++ f.text ++ ")") = .ok g) : ∀ q ∈ f.qualifiers, q.HasKeywordText := by
  obtain ⟨ss, hss, hspells⟩ := exists_spells h
  obtain ⟨us, hus, hw⟩ := parse_eq_ok_iff.1 hg
  obtain rfl := hus.unique (by simpa using lexes_bracketed hss)
  obtain ⟨g', hg', -⟩ := exists_isFilter_of_readsWhole hw
  cases hg' with
  | disjunction hd => exact hasKeywordText_of_derives hspells hd

/-- What a reference to a text stands for. -/
def referred (text : String) : String := if text = "" then "" else "(" ++ text ++ ")"

/-- Of a filter that was read, the text that a reference stands for is read exactly if the keywords have
texts to search for, and then as a filter with these for their contents. -/
theorem parse_referred {s : String} (h : parse s = .ok f) :
    ((∃ g, parse (referred f.text) = .ok g) ↔ ∀ q ∈ f.qualifiers, q.HasKeywordText) ∧
      ∀ g, parse (referred f.text) = .ok g → g = f.bare.reread := by
  obtain ⟨ss, hss, hw⟩ := parse_eq_ok_iff.1 h
  cases hw with
  | empty =>
    have hparse : parse (referred empty.text) = .ok empty := rfl
    have hplain := hasPlainKeyword_of_readsWhole .empty (List.forall_mem_nil _)
    refine ⟨iff_of_true ⟨_, hparse⟩ fun q hq => (hplain q hq).hasKeywordText, fun g hg => ?_⟩
    rw [hparse] at hg
    cases hg
    rfl
  | expression hr =>
    have hlegible := legible_of_reads hss hr
    obtain ⟨us, hus, hspells⟩ := exists_spells hlegible
    have hne : f.text ≠ "" := by
      intro hempty
      rw [hempty] at hus
      exact hspells.ne_nil (hus.unique (.done (List.forall_mem_nil _)))
    rw [referred, if_neg hne]
    have honly (g : Filter) (hg : parse ("(" ++ f.text ++ ")") = .ok g) := hasKeywordText_of_parse_bracketed hlegible hg
    refine ⟨⟨fun ⟨g, hg⟩ => honly g hg, fun hk => ⟨_, parse_bracketed_eq_bare hlegible hk⟩⟩, fun g hg => ?_⟩
    rw [parse_bracketed_eq_bare hlegible (honly g hg)] at hg
    exact (Except.ok.inj hg).symm

/-- The filter that is read from the text of another says the same of every issue. -/
theorem accepts_bare_reread (m : Model) (now : Instant) (i : Issue) :
    f.bare.reread.accepts m now i = f.accepts m now i :=
  (accepts_congr (conjuncts_reread f.bare) m now i).trans (f.accepts_bare m now i)

theorem ofFilter?_bare_reread : Scope.ofFilter? f.bare.reread = Scope.ofFilter? f :=
  (ofFilter?_congr (conjuncts_reread f.bare)).trans (ofFilter?_bare f)

end Filter

/-! ## What was given -/

namespace SavedFilters

variable {es : List Edit} {name : String} {f : Filter}

/-- The filter was given by the last of the changes that put a text under the name, and none has taken that
text away. -/
inductive Given : List Edit → String → Filter → Prop
  | added {es : List Edit} {name text expanded : String} {force : Bool} {f : Filter} {shown : String} :
    (empty.performAll es).expand text = .ok expanded → Filter.parse expanded = .ok f →
    ((empty.performAll es).perform (.add name text force)).1 = .ok shown → Given (es ++ [.add name text force]) name f
  | kept {es : List Edit} {e : Edit} {name : String} {f : Filter} :
    Given es name f → e.name ≠ name → Given (es ++ [e]) name f
  | failed {es : List Edit} {e : Edit} {name : String} {f : Filter} {error : ProjectError} :
    Given es name f → ((empty.performAll es).perform e).1 = .error error → Given (es ++ [e]) name f

/-- The filter of a text that is kept was given. -/
theorem exists_given {text : String} (h : (empty.performAll es).find? name = some text) : ∃ f, Given es name f := by
  induction es using List.reverseRecOn generalizing text with
  | nil => cases h
  | append_singleton es e ih =>
    rw [performAll_concat] at h
    by_cases hname : e.name = name
    · obtain ⟨⟨error, herror⟩, hsame⟩ | ⟨name', text', force, expanded, f, rfl, hexpanded, hf, -, -, hperform⟩ |
        ⟨name', text', rfl, -, hperform⟩ := (empty.performAll es).perform_cases e
      · rw [hsame] at h
        obtain ⟨f, hf⟩ := ih h
        exact ⟨f, .failed hf herror⟩
      · obtain rfl : name' = name := hname
        exact ⟨f, .added hexpanded hf (by rw [hperform])⟩
      · obtain rfl : name' = name := hname
        rw [hperform, find?_erase, if_pos rfl] at h
        cases h
    · rw [find?_perform (Ne.symm hname)] at h
      obtain ⟨f, hf⟩ := ih h
      exact ⟨f, .kept hf hname⟩

/-- What was given is kept in canonical form; it was read, and its meta-qualifiers agree. -/
theorem Given.spec (h : Given es name f) : (empty.performAll es).find? name = some f.text ∧ isValidName name = true ∧
    (∃ s, Filter.parse s = .ok f) ∧ ∃ scope, Scope.ofFilter? f = .ok scope := by
  induction h with
  | @added es name text expanded force f shown hexpanded hf hshown =>
    rw [performAll_concat]
    obtain ⟨⟨error, herror⟩, -⟩ | ⟨_, _, _, expanded', f', heq, hexpanded', hf', hscope, hname, hperform⟩ |
        ⟨_, _, heq, -⟩ := (empty.performAll es).perform_cases (.add name text force)
    · rw [herror] at hshown
      cases hshown
    · cases heq
      obtain rfl : expanded = expanded' := Except.ok.inj (hexpanded.symm.trans hexpanded')
      obtain rfl : f = f' := Except.ok.inj (hf.symm.trans hf')
      refine ⟨?_, hname, ⟨_, hf⟩, hscope⟩
      rw [hperform, find?_insert, if_pos rfl]
    · cases heq
  | kept _ hne ih =>
    rw [performAll_concat, find?_perform (Ne.symm hne)]
    exact ih
  | failed _ herror ih =>
    rw [performAll_concat, perform_eq_self herror]
    exact ih

/-! ## What a name stands for -/

theorem expand_name {s : SavedFilters} {text : String} (hname : isValidName name = true)
    (h : s.find? name = some text) : s.expand ("@" ++ name) = .ok (Filter.referred text) := by
  obtain ⟨hne, hall⟩ : name.toList ≠ [] ∧ ∀ c ∈ name.toList, isNameChar c = true := by
    simpa [isValidName] using hname
  have htake : name.toList.takeWhile isNameChar = name.toList := List.takeWhile_eq_self_iff.2 hall
  have hdrop : name.toList.dropWhile isNameChar = [] := List.dropWhile_eq_nil_iff.2 hall
  have hr : s.reference (name.toList.takeWhile isNameChar) = .ok (Filter.referred text).toList := by
    rw [htake]
    by_cases ht : text = ""
    · subst ht
      simp [reference, h, hne, Filter.referred]
    · rw [reference_of_find? hne (by rwa [String.ofList_toList]) ht]
      simp [Filter.referred, ht]
  have hrest : Expands s (name.toList.dropWhile isNameChar) [] := by
    rw [hdrop]
    exact .nil
  have hexpands := Expands.reference hr hrest
  rw [List.append_nil] at hexpands
  exact expand_eq_ok_iff.2 (by simpa using hexpands)

/-- Whatever the changes, each name that is kept stands for the filter that was given for it: the name is
expanded, and the text that it stands for is read exactly if the keywords of that filter have texts or
numbers for their contents. Whenever it is read, it has the scope of the filter that was given, and is
satisfied by the same issues. -/
theorem expand_name_performAll {text : String} (h : (empty.performAll es).find? name = some text) :
    (∃ f, Given es name f) ∧ ∀ f, Given es name f → ∃ out, (empty.performAll es).expand ("@" ++ name) = .ok out ∧
      ((∃ g, Filter.parse out = .ok g) ↔ ∀ q ∈ f.qualifiers, q.HasKeywordText) ∧
      ∀ g, Filter.parse out = .ok g →
        (∃ scope, Scope.ofFilter? g = .ok scope ∧ Scope.ofFilter? f = .ok scope) ∧
        ∀ m now i, g.accepts m now i = f.accepts m now i := by
  refine ⟨exists_given h, fun f hf => ?_⟩
  obtain ⟨hfind, hname, ⟨s, hs⟩, scope, hscope⟩ := hf.spec
  obtain ⟨hiff, hread⟩ := Filter.parse_referred hs
  refine ⟨_, expand_name hname hfind, hiff, fun g hg => ?_⟩
  obtain rfl := hread g hg
  exact ⟨⟨scope, Filter.ofFilter?_bare_reread.trans hscope, hscope⟩, Filter.accepts_bare_reread⟩

/-- A choice between a label, by the name of a filter that is dropped again, and a number to search for. -/
theorem expand_name_performAll_number : ∃ es f out g,
    es = [.add "bug" "label:bug" false, .add "mine" "@bug OR keyword:5" false, .remove "bug"] ∧
    f = .or (.leaf (.named "label" (.text "bug"))) (.leaf (.named "keyword" (.number 5))) ∧ Given es "mine" f ∧
    (empty.performAll es).expand ("@" ++ "mine") = .ok out ∧ Filter.parse out = .ok g ∧
    ∀ m now i, g.accepts m now i = f.accepts m now i := by
  have hexpand : (empty.performAll [.add "bug" "label:bug" false]).expand "@bug OR keyword:5" =
      .ok "(label:bug) OR keyword:5" := eq_ok_of_toOption (by decide +kernel)
  have hparse : Filter.parse "(label:bug) OR keyword:5" =
      .ok (.or (.leaf (.named "label" (.text "bug"))) (.leaf (.named "keyword" (.number 5)))) :=
    eq_ok_of_toOption (by decide +kernel)
  have hshown : ((empty.performAll [.add "bug" "label:bug" false]).perform (.add "mine" "@bug OR keyword:5" false)).1 =
      .ok "(label:bug OR 5)" := eq_ok_of_toOption (by decide +kernel)
  have hgiven : Given [.add "bug" "label:bug" false, .add "mine" "@bug OR keyword:5" false, .remove "bug"] "mine" _ :=
    .kept (.added hexpand hparse hshown) (by decide)
  obtain ⟨-, hrecall⟩ := expand_name_performAll hgiven.spec.1
  obtain ⟨out, hout, hiff, hsame⟩ := hrecall _ hgiven
  obtain ⟨g, hg⟩ := hiff.2 (by decide)
  exact ⟨_, _, out, g, rfl, rfl, hgiven, hout, hg, (hsame g hg).2⟩

/-- A day that is searched for is kept as a text that is not read. -/
theorem exists_parse_expand_name_eq_error : ∃ es name text, (empty.performAll es).find? name = some text ∧
    ¬ ∃ out f, (empty.performAll es).expand ("@" ++ name) = .ok out ∧ Filter.parse out = .ok f := by
  refine ⟨[.add "d" "-keyword:2020-01-01" false], "d", "NOT 2020-01-01", by decide +kernel, ?_⟩
  rintro ⟨out, f, hout, hf⟩
  have hexpand : (empty.performAll [.add "d" "-keyword:2020-01-01" false]).expand ("@" ++ "d") =
      .ok "(NOT 2020-01-01)" := eq_ok_of_toOption (by decide +kernel)
  obtain rfl : out = "(NOT 2020-01-01)" := Except.ok.inj (hout.symm.trans hexpand)
  have hnone : (Filter.parse "(NOT 2020-01-01)").toOption = none := by decide +kernel
  rw [hf] at hnone
  cases hnone

end SavedFilters

end IssueQuery
