/-
Tokens and the bytes of their text. The tokens that the lexer cuts stand in the text where their offsets
say, one behind the other, and leave out nothing but blanks; where it fails, they do so up to the foreign
character.
-/
import IssueQuery.Proofs.Token.Lexes

namespace IssueQuery.Token

/-! ## Places in a text -/

/-- A text that begins at byte `start` goes on from byte `o` with `rest`. In particular the byte is the
first of a character, or the end. -/
def FromByte (start : Nat) (cs : List Char) (o : Nat) (rest : List Char) : Prop :=
  ∃ before, cs = before ++ rest ∧ start + Text.byteLength before = o

namespace FromByte

variable {start o : Nat} {a b rest : List Char} {c : Char}

theorem mem (h : FromByte start a o (c :: rest)) : c ∈ a := by
  obtain ⟨before, rfl, -⟩ := h
  exact List.mem_append_right _ (List.mem_cons_self ..)

theorem start_le (h : FromByte start a o rest) : start ≤ o := by
  obtain ⟨before, -, rfl⟩ := h
  exact Nat.le_add_right ..

theorem lt (h : FromByte start a o (c :: rest)) : o < start + Text.byteLength a := by
  obtain ⟨before, rfl, rfl⟩ := h
  have := c.utf8Size_pos
  rw [Text.byteLength_append, Text.byteLength]
  omega

theorem append_left (a : List Char) (h : FromByte (start + Text.byteLength a) b o rest) :
    FromByte start (a ++ b) o rest := by
  obtain ⟨before, rfl, rfl⟩ := h
  exact ⟨a ++ before, (List.append_assoc ..).symm, by rw [Text.byteLength_append, Nat.add_assoc]⟩

theorem append_right (b : List Char) (h : FromByte start a o rest) : FromByte start (a ++ b) o (rest ++ b) := by
  obtain ⟨before, rfl, rfl⟩ := h
  exact ⟨before, List.append_assoc .., rfl⟩

/-- A character of a joined text stands in the first part or in the second. -/
theorem of_append (h : FromByte start (a ++ b) o (c :: rest)) :
    (∃ q, FromByte start a o (c :: q)) ∨ FromByte (start + Text.byteLength a) b o (c :: rest) := by
  obtain ⟨before, heq, rfl⟩ := h
  rcases List.append_eq_append_iff.1 heq with ⟨p, rfl, hp⟩ | ⟨q, rfl, hq⟩
  · exact .inr ⟨p, hp, by rw [Text.byteLength_append, Nat.add_assoc]⟩
  · cases q with
    | nil => exact .inr ⟨[], by simpa using hq.symm, by simp⟩
    | cons d q =>
      obtain ⟨rfl, -⟩ := List.cons.inj hq
      exact .inl ⟨q, before, rfl, rfl⟩

end FromByte

/-- The byte behind the token. -/
def stop (t : Token) : Nat := t.offset + Text.byteLength t.text.toList

/-! ## Texts covered by tokens -/

/-- Of a text that begins at byte `start`, the tokens and the blanks between them make up what stands
before byte `stop`. -/
structure Covers (start : Nat) (cs : List Char) (stop : Nat) (ts : List Token) : Prop where
  /-- Each token is the piece of the text at its offset, and the one that the rules cut there. -/
  slice : ∀ t ∈ ts, ∃ rest, FromByte start cs t.offset (t.text.toList ++ rest) ∧
    firstMatch? (t.text.toList ++ rest) = some (t.kind, t.text.toList.length)
  nonempty : ∀ t ∈ ts, t.text ≠ ""
  increasing : ts.Pairwise fun t u => t.offset < u.offset
  /-- No token begins before the one in front of it has ended. -/
  apart : ts.Pairwise fun t u => t.stop ≤ u.offset
  within : ∀ t ∈ ts, start ≤ t.offset ∧ t.stop ≤ stop
  /-- What stands in none of the tokens is blank. -/
  blank : ∀ o c rest, FromByte start cs o (c :: rest) → o < stop → (∀ t ∈ ts, ¬ (t.offset ≤ o ∧ o < t.stop)) →
    Text.isBlank c = true

section Covers

variable {start stop : Nat} {cs blanks text rest : List Char} {kind : Kind} {ts : List Token}

theorem covers_blanks (hb : ∀ b ∈ blanks, Text.isBlank b = true) :
    Covers start (blanks ++ rest) (start + Text.byteLength blanks) [] where
  slice := List.forall_mem_nil _
  nonempty := List.forall_mem_nil _
  increasing := .nil
  apart := .nil
  within := List.forall_mem_nil _
  blank o c tail hc ho _ := by
    rcases hc.of_append with ⟨q, hq⟩ | hc
    · exact hb c hq.mem
    · have := hc.start_le
      omega

/-- A token, with the blanks before it, in front of a text that is covered. -/
theorem Covers.token (h : Covers (start + Text.byteLength blanks + Text.byteLength text) rest stop ts)
    (hb : ∀ b ∈ blanks, Text.isBlank b = true) (hm : firstMatch? (text ++ rest) = some (kind, text.length))
    (hstop : start + Text.byteLength blanks + Text.byteLength text ≤ stop) :
    Covers start (blanks ++ (text ++ rest)) stop
      (⟨kind, String.ofList text, start + Text.byteLength blanks⟩ :: ts) := by
  generalize hfirst : (⟨kind, String.ofList text, start + Text.byteLength blanks⟩ : Token) = first
  have hoffset : first.offset = start + Text.byteLength blanks := by rw [← hfirst]
  have htext : first.text.toList = text := by rw [← hfirst, String.toList_ofList]
  have hend : first.stop = start + Text.byteLength blanks + Text.byteLength text := by
    rw [Token.stop, htext, hoffset]
  have hne : text ≠ [] := List.length_pos_iff.1 (pos_of_firstMatch? hm)
  have hpos : 0 < Text.byteLength text := by
    obtain ⟨c, cs, rfl⟩ := List.exists_cons_of_ne_nil hne
    have := c.utf8Size_pos
    rw [Text.byteLength]
    omega
  have hlater : ∀ t ∈ ts, first.stop ≤ t.offset := fun t ht => hend ▸ (h.within t ht).1
  refine ⟨List.forall_mem_cons.2 ⟨?_, fun t ht => ?_⟩, List.forall_mem_cons.2 ⟨fun hnil => ?_, h.nonempty⟩,
    List.pairwise_cons.2 ⟨fun t ht => ?_, h.increasing⟩, List.pairwise_cons.2 ⟨hlater, h.apart⟩,
    List.forall_mem_cons.2 ⟨by omega, fun t ht => ?_⟩, fun o d tail hd ho hout => ?_⟩
  · refine ⟨rest, ⟨blanks, by rw [htext], hoffset.symm⟩, ?_⟩
    rw [htext, hm, ← hfirst]
  · obtain ⟨tail, htail, hmatch⟩ := h.slice t ht
    exact ⟨tail, (htail.append_left text).append_left blanks, hmatch⟩
  · rw [hnil] at htext
    exact hne htext.symm
  · have := hlater t ht
    omega
  · have := h.within t ht
    omega
  · -- a character stands in the blanks, in the first token or behind it
    rw [List.forall_mem_cons] at hout
    rcases hd.of_append with ⟨q, hq⟩ | hd
    · exact hb d hq.mem
    · rcases hd.of_append with ⟨q, hq⟩ | hd
      · exact absurd ⟨by rw [hoffset]; exact hq.start_le, by rw [hend]; exact hq.lt⟩ hout.1
      · exact h.blank o d tail hd ho hout.2

/-- Blanks at the end of the text change nothing. -/
theorem Covers.append_blanks (h : Covers start cs stop ts) (hstop : stop ≤ start + Text.byteLength cs)
    (hb : ∀ b ∈ blanks, Text.isBlank b = true) : Covers start (cs ++ blanks) stop ts where
  slice t ht := by
    obtain ⟨rest, hrest, hm⟩ := h.slice t ht
    have hne : t.text.toList ++ rest ≠ [] := by
      obtain ⟨c, tail, hc, -⟩ := exists_of_firstMatch? hm
      rw [hc]
      exact List.cons_ne_nil _ _
    refine ⟨rest ++ blanks, ?_, ?_⟩
    · rw [← List.append_assoc]
      exact hrest.append_right blanks
    · rw [← List.append_assoc, firstMatch?_append hne (breaks_blanks hb), hm]
  nonempty := h.nonempty
  increasing := h.increasing
  apart := h.apart
  within := h.within
  blank o c rest hc ho hout := by
    rcases hc.of_append with ⟨q, hq⟩ | hc
    · exact h.blank o c q hq ho hout
    · have := hc.start_le
      omega

end Covers

/-! ## What the lexer covers -/

section Scan

variable {offset : Nat} {cs : List Char} {l : Lexed} {e : SyntaxError}

/-- The tokens cover the whole text. -/
theorem covers_of_scan (h : scan offset cs = .ok l) : Covers offset cs l.stop l.tokens := by
  rw [stop_of_scan h]
  refine scan_induction (P := fun offset cs l => Covers offset cs (offset + Text.byteLength cs) l.tokens)
    (fun {offset cs} hblank => ?_) ?_ h
  · have hcovers : Covers offset (cs ++ []) (offset + Text.byteLength cs) [] := covers_blanks hblank
    rwa [List.append_nil] at hcovers
  · intro offset blanks text rest kind l hblank hm ih
    have hlength : offset + Text.byteLength (blanks ++ (text ++ rest)) =
        offset + Text.byteLength blanks + Text.byteLength text + Text.byteLength rest := by
      rw [Text.byteLength_append, Text.byteLength_append]
      omega
    rw [hlength]
    exact ih.token hblank hm (Nat.le_add_right ..)

/-- The text up to a character where the lexer fails. -/
theorem covers_of_scan_error (h : scan offset cs = .error e) : ∃ c o rest ts, e = .unrecognised c o ∧
    FromByte offset cs o (c :: rest) ∧ firstMatch? (c :: rest) = none ∧ Covers offset cs o ts := by
  induction hn : cs.length using Nat.strong_induction_on generalizing offset cs with
  | _ n ih =>
    obtain ⟨blanks, hb, ⟨c, rest, rfl, hm, rfl⟩ | ⟨text, rest, kind, rfl, hm, hrest⟩⟩ := scan_error_cases h
    · exact ⟨c, _, rest, [], rfl, ⟨blanks, rfl, rfl⟩, hm, covers_blanks hb⟩
    · have := pos_of_firstMatch? hm
      obtain ⟨c, o, tail, ts, he, hc, hnone, hts⟩ :=
        ih rest.length (by simp only [List.length_append] at hn; omega) hrest rfl
      exact ⟨c, o, tail, _, he, (hc.append_left text).append_left blanks, hnone, hts.token hb hm hc.start_le⟩

end Scan

/-- The lexer cuts every text into tokens that cover it up to the blanks at its end, where the end of the
input is told; or it fails before those blanks, at a character where no rule matches, and tokens cover the
text up to there. -/
theorem lex_spec (s : String) :
    match lex s with
    | .ok l => Covers 0 s.toList l.stop l.tokens ∧ l.stop = Text.byteLength (Text.trimEnd s.toList) ∧
        l.lexemes = l.tokens.map .token ++ [.finish l.stop]
    | .error e => ∃ c o rest ts, e = .unrecognised c o ∧ o < Text.byteLength (Text.trimEnd s.toList) ∧
        FromByte 0 s.toList o (c :: rest) ∧ (∀ r ∈ rules, r.2 (c :: rest) = none) ∧ Covers 0 s.toList o ts := by
  obtain ⟨blanks, hs, hb⟩ := exists_trimEnd_append s.toList
  rw [lex]
  generalize Text.trimEnd s.toList = cs at hs
  rw [hs]
  cases h : scan 0 cs with
  | ok l =>
    have hstop : l.stop = Text.byteLength cs := (stop_of_scan h).trans (Nat.zero_add _)
    exact ⟨(covers_of_scan h).append_blanks (by omega) hb, hstop, rfl⟩
  | error e =>
    obtain ⟨c, o, rest, ts, rfl, hc, hm, hcovers⟩ := covers_of_scan_error h
    have hlt := hc.lt
    refine ⟨c, o, rest ++ blanks, ts, rfl, by omega, hc.append_right blanks, firstMatch?_eq_none_iff.1 ?_,
      hcovers.append_blanks (by omega) hb⟩
    rw [← List.cons_append, firstMatch?_append (List.cons_ne_nil c rest) (breaks_blanks hb), hm]

/-- Offsets count bytes: the first character takes two. -/
example : lex "é b $" = .error (.unrecognised '$' 5) := by decide +kernel

end IssueQuery.Token
