/-
The check of a text that may be unfinished. It says so exactly of the texts that fail and that become a
filter when more is written after them.
-/
import IssueQuery.Proofs.Filter.Cut
import IssueQuery.Proofs.Filter.Display

namespace IssueQuery

theorem SyntaxError.isUnfinished_iff {e : SyntaxError} {found : Lexeme} (h : e.found? = some found) {stop : Nat} :
    e.isUnfinished stop = true ↔ stop ≤ found.offset := by
  cases e with
  | unrecognised => cases h
  | endedEarly offset =>
    cases h
    exact decide_eq_true_iff
  | misplaced problem =>
    cases h
    exact decide_eq_true_iff

namespace Filter

open Token (Shape shape)

variable {s t : String} {e : SyntaxError} {f : Filter}

/-- Where a text is not a filter: at a foreign character, where its tokens are no expression, or at
the first token behind one. -/
theorem parse_eq_error_iff : parse s = .error e ↔ (Text.trim s.toList).isEmpty = false ∧ (Token.lex s = .error e ∨
    ∃ l, Token.lex s = .ok l ∧ (Fails l.stop (.expression 0) l.tokens e ∨ ∃ f t rest,
      Runs l.stop (.expression 0) l.tokens f (t :: rest) ∧ e = .misplaced (.afterFilter (.token t)))) := by
  unfold parse
  split
  · rename_i hblank
    simp [hblank]
  · rename_i hblank
    rw [Bool.not_eq_true] at hblank
    rw [bind_eq_error_iff]
    refine Iff.trans (or_congr_right (exists_congr fun l => and_congr_right fun _ => ?_)) (and_iff_right hblank).symm
    rw [bind_eq_error_iff]
    refine or_congr_right ⟨?_, ?_⟩
    · rintro ⟨r, hr, h⟩
      split at h
      · cases h
      · rename_i t rest hrest
        cases h
        exact ⟨r.value, t, rest, ⟨r, hr, rfl, hrest⟩, rfl⟩
    · rintro ⟨_, t, rest, ⟨r, hr, rfl, hrest⟩, rfl⟩
      refine ⟨r, hr, ?_⟩
      simp only [hrest]
      rfl

/-! ## Texts that can be completed -/

theorem genuine_of_mem_completions : ∀ s ∈ completions, s.Genuine := by
  have : ∀ s ∈ completions, Token.firstMatch? s.text.toList = some (s.kind, s.text.toList.length) := by
    decide +kernel
  exact this

/-- Any of the completions can be written, one after the other. -/
theorem exists_lexes_of_subset {us : List Shape} (h : us ⊆ completions) : ∃ t : String, Token.Lexes t.toList us := by
  induction us with
  | nil => exact ⟨"", .done (by simp)⟩
  | cons u us ih =>
    obtain ⟨hu, hus⟩ := List.cons_subset.1 h
    obtain ⟨t, ht⟩ := ih hus
    refine ⟨u.text ++ " " ++ t, ?_⟩
    simpa using (genuine_of_mem_completions u hu).lexes.append_space ht

/-- A text that fails at its end can go on to be a filter. -/
theorem exists_parse_of_isUnfinished (h : parse s = .error e) (hun : e.isUnfinished (Token.stopOf s) = true) :
    ∃ t f, parse (s ++ " " ++ t) = .ok f := by
  obtain ⟨-, hlex | ⟨l, hl, hfault⟩⟩ := parse_eq_error_iff.1 h
  · obtain ⟨c, o, rfl⟩ := Token.eq_unrecognised_of_lex hlex
    cases hun
  -- a fault at a token does not lie at the end
  have hend {t : Token} (ht : t ∈ l.tokens) (he : e.found? = some (.token t)) : False :=
    absurd ((SyntaxError.isUnfinished_iff he).1 hun) (Nat.not_le.2 (Token.offset_lt_of_lex hl t ht))
  rcases hfault with hfails | ⟨f, t, rest, hf, rfl⟩
  · rcases faultIn_of_fails (.expression 0) l.tokens hfails with ⟨t, ht, he⟩ | ⟨-, us, hus, g, hg⟩
    · exact (hend ht he).elim
    · obtain ⟨t, ht⟩ := exists_lexes_of_subset hus
      refine ⟨t, g, parse_eq_ok_iff.2 ⟨l.shapes ++ us, ?_, .expression ?_⟩⟩
      · simpa using (Token.lexes_of_lex hl).append_space ht
      · have hread := hg [] (avoids_nil _) (bindsWithin_nil 0)
        rwa [List.append_nil] at hread
  · exact (hend ((isSuffix_of_runs (.expression 0) l.tokens hf).subset (List.mem_cons_self ..)) rfl).elim

/-- A text that fails, but can go on to be a filter, fails at its end. -/
theorem isUnfinished_of_parse (h : parse s = .error e) (hf : parse (s ++ " " ++ t) = .ok f) :
    e.isUnfinished (Token.stopOf s) = true := by
  have hnot (g : Filter) : parse s ≠ .ok g := by
    intro hg
    rw [h] at hg
    cases hg
  obtain ⟨us, hus, hwhole⟩ := parse_eq_ok_iff.1 hf
  obtain ⟨ps, hps, hbegins⟩ : ∃ ps, Token.Lexes s.toList ps ∧ Token.Begins ps us :=
    Token.exists_begins_of_lexes Token.isBlank_space (by simpa using hus)
  cases hwhole with
  | empty =>
    obtain rfl := hbegins.eq_nil
    exact absurd (parse_eq_ok_iff.2 ⟨[], hps, .empty⟩) (hnot _)
  | expression hread =>
    rcases hread.doneOrCut hbegins with ⟨vs, hvs, hr⟩ | hcut
    · obtain rfl := hvs.eq_nil
      exact absurd (parse_eq_ok_iff.2 ⟨ps, hps, .expression hr⟩) (hnot _)
    · obtain ⟨l, hl, rfl⟩ := Token.exists_lex_of_lexes hps
      rcases hcut l.stop l.tokens rfl with ⟨g, hg⟩ | ⟨e', he', hfound⟩
      · have hr := reads_of_runs (.expression 0) l.tokens hg (avoids_nil _)
        exact absurd (parse_eq_ok_iff.2 ⟨_, hps, .expression hr⟩) (hnot _)
      · obtain ⟨hblank, -⟩ := parse_eq_error_iff.1 h
        have herror := parse_eq_error_iff.2 ⟨hblank, .inr ⟨l, hl, .inl he'⟩⟩
        obtain rfl : e = e' := by
          rw [h] at herror
          exact Except.error.inj herror
        exact (SyntaxError.isUnfinished_iff hfound).2 (Token.stop_of_lex hl).ge

/-- A text is found incomplete if and only if it is no filter, but becomes one when a blank and some
further text are written after it. -/
theorem check_eq_incomplete_iff (s : String) :
    check s = .incomplete ↔ (∃ e, parse s = .error e) ∧ ∃ t f, parse (s ++ " " ++ t) = .ok f := by
  unfold check
  constructor
  · intro h
    split at h
    · cases h
    · rename_i e he
      split at h
      · rename_i hun
        exact ⟨⟨e, he⟩, exists_parse_of_isUnfinished he hun⟩
      · cases h
  · rintro ⟨⟨e, he⟩, t, f, hf⟩
    rw [he]
    exact if_pos (isUnfinished_of_parse he hf)

end Filter

end IssueQuery
