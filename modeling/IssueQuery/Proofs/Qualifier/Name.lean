/-
Names of qualifiers as the lexer cuts them: hyphenated words in lower case. Such a name is written
with a colon and read again as itself, and no other names one of the kinds with a single name.
-/
import IssueQuery.Proofs.Filter.Grammar
import IssueQuery.Proofs.Text.Lower

namespace IssueQuery

namespace Token

theorem IsHyphenated.mem {w : List Char} (h : IsHyphenated w) : ∀ c ∈ w, c.isAlpha = true ∨ c = '-' := by
  induction h with
  | letter hc => simpa using .inl hc
  | cons hc _ ih => simpa using ⟨.inl hc, ih⟩
  | hyphen hc _ ih => simpa using ⟨.inl hc, ih⟩

theorem IsHyphenated.ascii {w : List Char} (h : IsHyphenated w) : ∀ c ∈ w, c.toNat < 128 := by
  rintro c hc
  rcases h.mem c hc with hc | rfl
  · exact (Text.isAsciiWord_lt (by simp [Text.isAsciiWord, Text.isAlphanum_of_isAlpha hc])).2
  · decide

theorem IsHyphenated.toLower {w : List Char} (h : IsHyphenated w) : IsHyphenated (w.map Char.toLower) := by
  induction h with
  | letter hc => exact .letter (by simpa using hc)
  | cons hc _ ih => exact .cons (by simpa using hc) ih
  | hyphen hc _ ih => exact .hyphen (by simpa using hc) ih

theorem IsHyphenated.not_blank {w : List Char} (h : IsHyphenated w) : ∀ c ∈ w, Text.isBlank c = false := by
  rintro c hc
  rcases h.mem c hc with hc | rfl
  · exact Text.isBlank_eq_false_of_isAlphanum (Text.isAlphanum_of_isAlpha hc)
  · decide

end Token

namespace Qualifier

open Token (Shape IsHyphenated)

/-- A hyphenated word in lower case. -/
structure IsName (name : String) : Prop where
  hyphenated : IsHyphenated name.toList
  lower : Text.lower name = name

theorem isName_lower {s : String} (h : IsHyphenated s.toList) : IsName (Text.lower s) where
  hyphenated := by rw [Text.toList_lower h.ascii]; exact h.toLower
  lower := by
    have hlower : (Text.lower s).toList = s.toList.map Char.toLower := Text.toList_lower h.ascii
    have hascii : ∀ c ∈ (Text.lower s).toList, c.toNat < 128 := by
      rw [hlower]; exact h.toLower.ascii
    rw [← String.toList_inj, Text.toList_lower hascii, hlower, List.map_map]
    refine List.map_congr_left fun c _ => ?_
    simp

/-! ## Names in tokens -/

theorem name_of_isQualifier {s : Shape} {w blanks : List Char} (hw : IsHyphenated w)
    (hb : ∀ b ∈ blanks, Text.isBlank b = true) (hs : s.text.toList = w ++ (blanks ++ [':'])) :
    s.name = Text.lower (String.ofList w) := by
  have hcolon : ∀ c ∈ w ++ blanks, (c == ':') = false := by
    rintro c hc
    refine beq_eq_false_iff_ne.2 ?_
    rintro rfl
    rcases List.mem_append.1 hc with hc | hc
    · exact absurd (hw.mem _ hc) (by decide)
    · exact absurd (hb _ hc) (by decide)
  unfold Token.Shape.name Token.qualifierName
  rw [hs, ← List.append_assoc, Text.reverse_dropWhile_append hcolon (by simp), Text.trimEnd_append hw.not_blank hb]

/-- The name in a token that the lexer has cut. -/
theorem isName_of_firstMatch? {s : Shape} (hk : s.kind = .qualifier)
    (h : Token.firstMatch? s.text.toList = some (s.kind, s.text.toList.length)) : IsName s.name := by
  rw [hk] at h
  obtain ⟨w, blanks, hw, hb, hs⟩ : ∃ w blanks, IsHyphenated w ∧ (∀ b ∈ blanks, Text.isBlank b = true) ∧
      s.text.toList = w ++ (blanks ++ [':']) := by
    generalize s.text.toList = cs at h
    cases Token.isQualifier_of_firstMatch? h with
    | mk hw hb => exact ⟨_, _, hw, hb, rfl⟩
  rw [name_of_isQualifier hw hb hs]
  exact isName_lower (by rwa [String.toList_ofList])

/-- The name written with a colon is read as itself. -/
theorem IsName.name {name : String} (h : IsName name) : Shape.name ⟨.qualifier, name ++ ":"⟩ = name := by
  rw [name_of_isQualifier h.hyphenated (List.forall_mem_nil _) (by simp), String.ofList_toList, h.lower]

/-- A name and a colon are a token, whatever follows. -/
theorem IsName.firstMatch? {name : String} (h : IsName name) (rest : List Char) :
    Token.firstMatch? ((name ++ ":").toList ++ rest) = some (.qualifier, (name ++ ":").toList.length) := by
  have hq : Token.qualifierLength ((name ++ ":").toList ++ rest) = some (name ++ ":").toList.length := by
    have := Token.qualifierLength_append h.hyphenated (List.forall_mem_nil fun b => Text.isBlank b = true) rest
    simpa using this
  obtain ⟨c, cs, hc⟩ := List.exists_cons_of_ne_nil h.hyphenated.ne_nil
  have halpha : c.isAlpha = true := h.hyphenated.head c (by simp [hc])
  have hlower : c.toLower = c := by
    have := Text.toList_lower h.hyphenated.ascii
    rw [h.lower, hc] at this
    exact (List.cons.inj this).1.symm
  -- the signs that are words are in upper case
  have hsign : c ∉ "AON&|~!-".toList := by
    intro hm
    have : ("AON&|~!-".toList.all fun c => !(c.isAlpha && c.toLower == c)) = true := by decide +kernel
    simpa [halpha, hlower] using List.all_eq_true.1 this c hm
  have hdigit : c.isDigit = false := Text.isDigit_eq_false_of_isAlpha halpha
  generalize (name ++ ":").toList.length = n at hq ⊢
  rw [String.toList_append, hc] at hq ⊢
  exact Token.firstMatch?_qualifier hsign (Token.dateLength_eq_none hdigit) hq

/-! ## The table of names -/

/-- Every name of the table is one that the lexer cuts, and it names its kind. -/
theorem isName_of_mem_names {name : String} {k : Kind} (h : (name, k) ∈ Kind.names) :
    IsName name ∧ Kind.ofName name = k := by
  have hall : ∀ entry ∈ Kind.names, entry.1.toList ≠ [] ∧
      Token.hyphenatedLength entry.1.toList = entry.1.toList.length ∧ Text.lower entry.1 = entry.1 ∧
      Kind.ofName entry.1 = entry.2 := by decide +kernel
  obtain ⟨hne, hlength, hlower, hkind⟩ := hall _ h
  refine ⟨⟨?_, hlower⟩, hkind⟩
  have := Token.isHyphenated_take (hlength.trans_ne (by simpa using hne))
  rwa [hlength, List.take_length] at this

/-! ## Names of a single kind -/

/-- Such a name is the same without the blanks around it and in lower case. -/
theorem IsName.plain {name : String} (h : IsName name) : Text.lower (String.ofList (Text.trim name.toList)) = name := by
  have hstart : Text.trimStart name.toList = name.toList := by
    obtain ⟨c, cs, hc⟩ := List.exists_cons_of_ne_nil h.hyphenated.ne_nil
    have hb := h.hyphenated.not_blank c (by simp [hc])
    rw [hc, Text.trimStart_cons hb]
  have hend := Text.trimEnd_append h.hyphenated.not_blank (List.forall_mem_nil fun b => Text.isBlank b = true)
  rw [List.append_nil] at hend
  rw [Text.trim, hstart, hend, String.ofList_toList, h.lower]

theorem IsName.ofName {name : String} (h : IsName name) :
    Kind.ofName name = ((Kind.names.find? fun (n, _) => n == name).map (·.2)).getD .unknown := by
  unfold Kind.ofName
  simp only [h.plain]

/-- A kind that goes by one name alone is told by it. -/
theorem IsName.eq_of_ofName {name plain : String} {k : Kind} (h : IsName name) (hk : Kind.ofName name = k)
    (hknown : k ≠ .unknown) (honly : (Kind.names.all fun (n, l) => l != k || n == plain) = true) : name = plain := by
  rw [h.ofName] at hk
  cases hf : Kind.names.find? fun (n, _) => n == name with
  | none =>
    rw [hf] at hk
    exact absurd hk.symm hknown
  | some entry =>
    obtain ⟨n, l⟩ := entry
    rw [hf] at hk
    obtain rfl : l = k := hk
    have hn : n = name := by simpa using List.find?_some hf
    have := List.all_eq_true.1 honly (n, l) (List.mem_of_find?_eq_some hf)
    simpa [hn] using this

theorem IsName.eq_keyword {name : String} (h : IsName name) (hk : Kind.ofName name = .keyword) : name = "keyword" :=
  h.eq_of_ofName hk (by decide) (by decide)

end Qualifier

end IssueQuery
