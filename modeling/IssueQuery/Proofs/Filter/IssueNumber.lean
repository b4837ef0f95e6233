/-
The number of an issue in its notations. However many zeros it begins with and however large it is, it names
the same issue with a number sign and without, alone and as both bounds of a range.
-/
import IssueQuery.Proofs.Filter.Quoting

namespace IssueQuery

open Token (Lexes Shape)

/-! ## Numerals -/

namespace Text

/-- A run of decimal digits. -/
structure IsNumeral (s : String) : Prop where
  digits : ∀ c ∈ s.toList, c.isDigit = true
  nonempty : s.toList ≠ []

/-- The number that a run of digits denotes. -/
def numeralValue (s : String) : Nat := Nat.ofDigitChars 10 s.toList 0

variable {s : String}

theorem IsNumeral.not_sign (h : IsNumeral s) : ∀ c ∈ s.toList.head?, c ≠ '-' ∧ c ≠ '+' ∧ c ≠ '#' := by
  intro c hc
  have hdigit := h.digits c (List.mem_of_mem_head? hc)
  refine ⟨?_, ?_, ?_⟩ <;> rintro rfl <;> cases hdigit

theorem IsNumeral.natural? (h : IsNumeral s) : natural? s.toList = some (numeralValue s) :=
  natural?_eq h.digits h.nonempty

/-- A number that is too large is none. -/
theorem IsNumeral.int64?_eq (h : IsNumeral s) :
    int64? s = if (numeralValue s : Int) < int64Bound then some (numeralValue s : Int) else none := by
  have hlow : -int64Bound ≤ (numeralValue s : Int) := by unfold int64Bound; omega
  rw [int64?, integer?_eq_natural? fun c hc => ⟨(h.not_sign c hc).1, (h.not_sign c hc).2.1⟩, h.natural?]
  simp [Option.filter, hlow]

theorem IsNumeral.word32?_eq (h : IsNumeral s) : word32? s.toList = word32OfNat? (numeralValue s) := by
  rw [word32?, unsigned?_eq_natural? fun hc => (h.not_sign '+' hc).2.1 rfl, h.natural?]
  rfl

theorem toList_numberSign (s : String) : ("#" ++ s).toList = '#' :: s.toList := by simp

theorem int64?_numberSign (s : String) : int64? ("#" ++ s) = none := by
  have hnatural : natural? ('#' :: s.toList) = none := by
    rw [Option.eq_none_iff_forall_not_mem]
    intro n hn
    have hdigits := (natural?_eq_some_iff.1 hn).2.1
    exact absurd (hdigits '#' (List.mem_cons_self ..)) (by decide)
  rw [int64?, toList_numberSign, integer?_eq_natural? (by simp), hnatural]
  rfl

end Text

open Text (IsNumeral numeralValue)

section Symbols

variable {d : String}

theorem Text.IsNumeral.genuine (h : IsNumeral d) : Shape.Genuine ⟨.symbol, d⟩ :=
  Token.firstMatch?_digits h.digits h.nonempty

theorem Text.IsNumeral.genuine_numberSign (h : IsNumeral d) : Shape.Genuine ⟨.symbol, "#" ++ d⟩ := by
  have hsymbol : Token.symbolLength ('#' :: d.toList) = some ('#' :: d.toList).length := by
    rw [Token.symbolLength_cons (by decide +kernel), List.takeWhile_eq_self_iff.2, List.length_cons]
    intro c hc
    simp [Token.continuesSymbol, Text.isWord_of_isAlphanum (Text.isAlphanum_of_isDigit (h.digits c hc))]
  unfold Shape.Genuine
  rw [Text.toList_numberSign]
  exact Token.firstMatch?_symbol (by decide) (Token.dateLength_eq_none (by decide))
    (Token.qualifierLength_eq_none (by decide)) hsymbol

end Symbols

/-! ## Issues of a number -/

theorem Issue.idOf?_numeral {d : String} (h : IsNumeral d) : idOf? d = Text.word32OfNat? (numeralValue d) := by
  rw [idOf?_of_notMem_head fun hc => (h.not_sign '#' hc).2.2 rfl, h.word32?_eq]

theorem Issue.idOf?_numberSign {d : String} (h : IsNumeral d) :
    idOf? ("#" ++ d) = Text.word32OfNat? (numeralValue d) := by
  unfold idOf?
  rw [Text.toList_numberSign]
  exact h.word32?_eq

theorem Text.word32OfNat?_eq_some_iff {n : Nat} {w : UInt32} : word32OfNat? n = some w ↔ w.toNat = n := by
  rw [word32OfNat?, Option.ite_none_right_eq_some]
  constructor
  · rintro ⟨hn, hw⟩
    cases hw
    exact UInt32.toNat_ofNat_of_lt' hn
  · rintro rfl
    exact ⟨w.toNat_lt_size, by rw [UInt32.ofNat_toNat]⟩

namespace Qualifier

/-- The content stands for the issue of the number, wherever an issue is looked for by its number. -/
structure Content.Names (c : Content) (n : Nat) : Prop where
  isIdOf_iff : ∀ i : Issue, c.isIdOf i = true ↔ i.id.toNat = n
  parentId?_eq : c.parentId? = Text.word32OfNat? n

namespace Content

theorem names_number (n : Nat) : (number n).Names n where
  isIdOf_iff i := by
    rw [isIdOf, beq_iff_eq]
    omega
  parentId?_eq := by rw [parentId?, if_pos (Int.natCast_nonneg n), Int.toNat_natCast]

theorem names_text {s : String} {n : Nat} (h : Issue.idOf? s = Text.word32OfNat? n) : (text s).Names n where
  isIdOf_iff i := by rw [isIdOf, h, beq_iff_eq, Text.word32OfNat?_eq_some_iff]
  parentId?_eq := h

variable {d : String}

/-- A numeral is read as a number or, if it is too large, as a text; it stands for the same issue. -/
theorem names_ofWord (h : IsNumeral d) : (ofWord d).Names (numeralValue d) := by
  have hint := h.int64?_eq
  split at hint
  · rw [ofWord_eq_number hint]
    exact names_number _
  · rw [ofWord_eq_text hint]
    exact names_text (Issue.idOf?_numeral h)

theorem names_ofWord_numberSign (h : IsNumeral d) : (ofWord ("#" ++ d)).Names (numeralValue d) := by
  rw [ofWord_eq_text (Text.int64?_numberSign d)]
  exact names_text (Issue.idOf?_numberSign h)

theorem isIdOf_between_self (n : Int) (i : Issue) : (numbers (.between n n)).isIdOf i = (number n).isIdOf i := by
  rw [Bool.eq_iff_iff]
  simp only [isIdOf, Range.encloses, Range.between, Option.all_some, Bool.false_eq_true, reduceIte, Bool.and_eq_true,
    decide_eq_true_eq, beq_iff_eq]
  omega

end Content

end Qualifier

/-! ## Filters -/

namespace Filter

open Qualifier (Content Kind IsName)

section Issues

variable {name : String} {c d : Content}

theorem accepts_isIdOf (hk : Kind.ofName name = .id) (c : Content) (m : Model) (now : Instant) (i : Issue) :
    (leaf (.named name c)).accepts m now i = .ok (c.isIdOf i) := by
  rw [accepts_leaf (by rw [Qualifier.isMeta, Qualifier.kind, hk]; rfl)]
  simp only [Qualifier.isSatisfied, Qualifier.kind, hk, Qualifier.content]

theorem accepts_isAncestorOf (hk : Kind.ofName name = .parent) (c : Content) (m : Model) (now : Instant) (i : Issue) :
    (leaf (.named name c)).accepts m now i = .ok (c.isAncestorOf m i) := by
  rw [accepts_leaf (by rw [Qualifier.isMeta, Qualifier.kind, hk]; rfl)]
  simp only [Qualifier.isSatisfied, Qualifier.kind, hk, Qualifier.content]

theorem sameIssues_of_isIdOf (hk : Kind.ofName name = .id) (h : ∀ i, c.isIdOf i = d.isIdOf i) :
    SameIssues (leaf (.named name c)) (leaf (.named name d)) := by
  intro m now i _
  rw [accepts_isIdOf hk, accepts_isIdOf hk, h]

theorem sameIssues_of_parentId? (hk : Kind.ofName name = .parent) (h : c.parentId? = d.parentId?) :
    SameIssues (leaf (.named name c)) (leaf (.named name d)) := by
  intro m now i _
  rw [accepts_isAncestorOf hk, accepts_isAncestorOf hk, Content.isAncestorOf, Content.isAncestorOf, h]

variable {n : Nat} {m : Model} {now : Instant} {i : Issue}

/-- Where an issue is looked for by its number, the content finds the issue of the number. -/
theorem accepts_id_iff (hk : Kind.ofName name = .id) (hc : c.Names n) :
    (leaf (.named name c)).accepts m now i = .ok true ↔ i.id.toNat = n := by
  rw [accepts_isIdOf hk, Except.ok.injEq, hc.isIdOf_iff]

/-- Where an issue is looked for by an ancestor, the content finds the issue of the number and those that have it
among their ancestors. -/
theorem accepts_parent_iff (hk : Kind.ofName name = .parent) (hc : c.Names n) :
    (leaf (.named name c)).accepts m now i = .ok true ↔
      ∃ p : UInt32, p.toNat = n ∧ (i.id = p ∨ m.hasAncestor i p = true) := by
  rw [accepts_isAncestorOf hk, Except.ok.injEq, Content.isAncestorOf, hc.parentId?_eq, Option.any_eq_true]
  refine exists_congr fun p => ?_
  rw [Text.word32OfNat?_eq_some_iff, Bool.or_eq_true, beq_iff_eq]

end Issues

section Numeral

variable {name d : String}

theorem parse_numeral (hname : IsName name) (hk : Kind.ofName name ≠ .sort) (h : IsNumeral d) :
    parse (name ++ ":" ++ d) = .ok (leaf (.named name (.ofWord d))) ∧
      parse (name ++ ":" ++ ("#" ++ d)) = .ok (leaf (.named name (.ofWord ("#" ++ d)))) :=
  ⟨parse_named hname h.genuine.lexes (isContent_ofWord hk),
    parse_named hname h.genuine_numberSign.lexes (isContent_ofWord hk)⟩

/-- A numeral as both bounds of a range. -/
theorem parse_between (hname : IsName name) (hk : Kind.ofName name ≠ .sort) (h : IsNumeral d) {n : Int}
    (hn : Text.int64? d = some n) :
    parse (name ++ ":" ++ (d ++ " .. " ++ d)) = .ok (leaf (.named name (.numbers (.between n n)))) := by
  have hdots := Lexes.sign (show (.dots, "..") ∈ Token.signs by simp [Token.signs]) h.genuine.lexes.space
  have hlexes : Lexes (d ++ " .. " ++ d).toList [⟨.symbol, d⟩, ⟨.dots, ".."⟩, ⟨.symbol, d⟩] := by
    simpa using h.genuine.lexes.append_space hdots
  exact parse_named hname hlexes (.numbers hk (.between hn rfl hn))

end Numeral

/-- A number names the same issue with a number sign and without, and the same parent: the issue that has the
number, alone or with all issues that have it for an ancestor. A number that fits in 64 bits names the same issue as
a range from it to itself. -/
theorem sameIssues_numeral {d : String} (h : IsNumeral d) :
    (∃ plain signed, parse ("id:" ++ d) = .ok plain ∧ parse ("id:" ++ ("#" ++ d)) = .ok signed ∧
        SameIssues plain signed ∧ ((numeralValue d : Int) < Text.int64Bound →
          ∃ range, parse ("id:" ++ (d ++ " .. " ++ d)) = .ok range ∧ SameIssues range plain) ∧
        ∀ m now i, plain.accepts m now i = .ok true ↔ i.id.toNat = numeralValue d) ∧
      ∃ plain signed, parse ("parent:" ++ d) = .ok plain ∧ parse ("parent:" ++ ("#" ++ d)) = .ok signed ∧
        SameIssues plain signed ∧ ∀ m now i, plain.accepts m now i = .ok true ↔
          ∃ p : UInt32, p.toNat = numeralValue d ∧ (i.id = p ∨ m.hasAncestor i p = true) := by
  have hplain := Content.names_ofWord h
  have hsigned := Content.names_ofWord_numberSign h
  obtain ⟨hid, hidKind⟩ := Qualifier.isName_of_mem_names (show ("id", .id) ∈ Kind.names by decide)
  obtain ⟨hparent, hparentKind⟩ := Qualifier.isName_of_mem_names (show ("parent", .parent) ∈ Kind.names by decide)
  have hidSort : Kind.ofName "id" ≠ .sort := by rw [hidKind]; decide
  obtain ⟨hid1, hid2⟩ := parse_numeral hid hidSort h
  obtain ⟨hparent1, hparent2⟩ := parse_numeral hparent (by rw [hparentKind]; decide) h
  refine ⟨⟨_, _, hid1, hid2, ?_, fun hfits => ?_, fun _ _ _ => accepts_id_iff hidKind hplain⟩, _, _, hparent1, hparent2,
    ?_, fun _ _ _ => accepts_parent_iff hparentKind hplain⟩
  · refine sameIssues_of_isIdOf hidKind fun i => ?_
    rw [Bool.eq_iff_iff, hplain.isIdOf_iff, hsigned.isIdOf_iff]
  · have hint : Text.int64? d = some (numeralValue d : Int) := by rw [h.int64?_eq, if_pos hfits]
    refine ⟨_, parse_between hid hidSort h hint, sameIssues_of_isIdOf hidKind fun i => ?_⟩
    rw [Content.isIdOf_between_self, Content.ofWord_eq_number hint]
  · exact sameIssues_of_parentId? hparentKind (hplain.parentId?_eq.trans hsigned.parentId?_eq.symm)

/-- Leading zeros beyond the digits of any number of 64 bits; and a number beyond those of 32, which finds no
issue. -/
theorem sameIssues_numeral_padded : IsNumeral "0000000000000000000000007" ∧
    (∃ plain signed range parent parentSigned, parse "id:0000000000000000000000007" = .ok plain ∧
      parse "id:#0000000000000000000000007" = .ok signed ∧
      parse "id:0000000000000000000000007 .. 0000000000000000000000007" = .ok range ∧
      parse "parent:0000000000000000000000007" = .ok parent ∧
      parse "parent:#0000000000000000000000007" = .ok parentSigned ∧ SameIssues plain signed ∧
      SameIssues range plain ∧ SameIssues parent parentSigned ∧
      ∀ m now i, plain.accepts m now i = .ok true ↔ i.id = 7) ∧
    ∃ plain, parse "id:4294967303" = .ok plain ∧ ∀ m now i, plain.accepts m now i ≠ .ok true := by
  have h : IsNumeral "0000000000000000000000007" := ⟨by simp, by simp⟩
  have hlarge : IsNumeral "4294967303" := ⟨by simp, by simp⟩
  have hvalue : numeralValue "0000000000000000000000007" = 7 := by decide
  have hvalue' : numeralValue "4294967303" = 4294967303 := by decide
  obtain ⟨⟨plain, signed, h1, h2, hsame, hrange, hfound⟩, parent, parentSigned, h4, h5, hsame', -⟩ :=
    sameIssues_numeral h
  obtain ⟨⟨large, -, hlargeParse, -, -, -, hlargeFound⟩, -⟩ := sameIssues_numeral hlarge
  obtain ⟨range, h3, hsame''⟩ := hrange (by rw [hvalue, Text.int64Bound]; omega)
  refine ⟨h, ⟨plain, signed, range, parent, parentSigned, h1, h2, h3, h4, h5, hsame, hsame'', hsame',
    fun m now i => ?_⟩, large, hlargeParse, fun m now i hi => ?_⟩
  · rw [hfound, hvalue, ← UInt32.toNat_inj]
    rfl
  · have hlt := i.id.toNat_lt_size
    rw [(hlargeFound m now i).1 hi, hvalue'] at hlt
    exact absurd hlt (by decide)

end Filter

end IssueQuery
