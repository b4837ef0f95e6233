/-
The shape of every filter that was read from a text. It is the empty one for a blank text alone. In any
other, each leaf has a name and a content that go together, and the texts and keys in it are tokens by
themselves, though they were cut out of a longer text.
-/
import IssueQuery.Proofs.Filter.Display
import IssueQuery.Proofs.Token.Cover

namespace IssueQuery

open Token (Shape)

/-! ## Texts of one token -/

namespace Token

/-- The text is cut into one token of the kind, which is all of it. -/
def IsOne (kind : Kind) (s : String) : Prop := lex s = .ok ⟨[⟨kind, s, 0⟩], stopOf s⟩

theorem Shape.Genuine.isOne {kind : Kind} {s : String} (h : Shape.Genuine ⟨kind, s⟩) : IsOne kind s := by
  obtain ⟨l, hl, hs⟩ := exists_lex_of_lexes h.lexes
  rw [IsOne, hl, ← stop_of_lex hl]
  obtain ⟨ts, stop⟩ := l
  obtain ⟨⟨kind, s, offset⟩, rfl, ht⟩ := List.map_eq_singleton_iff.1 hs
  cases ht
  -- a token as long as the text has nothing before it
  obtain ⟨rest, ⟨before, hcs, hoffset⟩, -⟩ := (covers_of_scan hl).slice _ (List.mem_singleton_self _)
  obtain ⟨blanks, htext, -⟩ := exists_trimEnd_append s.toList
  have hlength := congrArg List.length htext
  simp only [hcs, List.length_append] at hlength
  obtain rfl : before = [] := List.eq_nil_of_length_eq_zero (by omega)
  obtain rfl : 0 = offset := hoffset
  rfl

end Token

/-! ## Leaves -/

/-- The range has a bound, and one alone if it leaves its bounds out. -/
structure Range.IsProper {α : Type} (r : Range α) : Prop where
  bounded : r.start.isSome ∨ r.finish.isSome
  oneSided : r.strict = true → ¬ (r.start.isSome ∧ r.finish.isSome)

namespace Qualifier

/-- The numbers in a content, alone or as bounds. -/
def Content.numbersIn : Content → List Int
  | number n => [n]
  | numbers r => r.start.toList ++ r.finish.toList
  | _ => []

/-- What a leaf is like that was read from a text. -/
structure IsRead (q : Qualifier) : Prop where
  nonempty : q ≠ .empty
  kind : q.kind = Kind.ofName q.name
  name : IsName q.name
  sortKeys_iff : q.content.isSortKeys = true ↔ q.kind = .sort
  keys : ∀ ks, q.content = .sortKeys ks → ks ≠ [] ∧ ∀ k ∈ ks, Token.IsOne .symbol k.key
  numbers : ∀ n ∈ q.content.numbersIn, 0 ≤ n
  numberRange : ∀ r, q.content = .numbers r → r.IsProper
  dateRange : ∀ r, q.content = .dates r → r.IsProper
  /-- A text is of words that are tokens by themselves, a blank apart. -/
  words : ∀ s, q.content = .text s → ∃ ws, s = " ".intercalate ws ∧
    ∀ w ∈ ws, Token.IsOne .symbol w ∨ Token.IsOne .date w

theorem IsWrittenRange.isProper {α : Type} {P : α → Prop} {r : Range α} (h : IsWrittenRange P r) : r.IsProper := by
  cases h with
  | between => exact ⟨.inl rfl, fun hstrict => by cases hstrict⟩
  | above => exact ⟨.inl rfl, fun _ h => by cases h.2⟩
  | below => exact ⟨.inr rfl, fun _ h => by cases h.1⟩

theorem IsWrittenRange.forall_bounds {α : Type} {P : α → Prop} {r : Range α} (h : IsWrittenRange P r) :
    ∀ a ∈ r.start.toList ++ r.finish.toList, P a := by
  cases h with
  | between ha hb => simpa [Range.between] using ⟨ha, hb⟩
  | above ha => simpa [Range.above] using ha
  | below ha => simpa [Range.below] using ha

theorem IsPlainNumber.nonneg {n : Int} (h : IsPlainNumber n) : 0 ≤ n := by
  obtain ⟨k, rfl, -⟩ := h
  exact Int.natCast_nonneg k

variable {name : String} {c : Content}

/-- Sort keys go with the name of a sort and with no other. -/
theorem IsLegible.isSortKeys_iff (h : IsLegible name c) : c.isSortKeys = true ↔ Kind.ofName name = .sort := by
  cases h with
  | sortKeys hs => exact iff_of_true rfl hs
  | text hs | date hs | dates hs | number hs | numbers hs => exact iff_of_false Bool.false_ne_true hs

theorem IsLegible.nonneg (h : IsLegible name c) : ∀ n ∈ c.numbersIn, 0 ≤ n := by
  cases h with
  | number _ hn => exact List.forall_mem_singleton.2 hn.nonneg
  | numbers _ hr => exact fun n hn => (hr.forall_bounds n hn).nonneg
  | text | date | dates | sortKeys => exact List.forall_mem_nil _

theorem Legible.isRead {q : Qualifier} (h : q.Legible) : q.IsRead := by
  cases q with
  | empty => exact h.elim
  | named name c =>
    obtain ⟨hname, hc⟩ := h
    refine ⟨nofun, rfl, hname, hc.isSortKeys_iff, fun ks hks => ?_, hc.nonneg, fun r hr => ?_, fun r hr => ?_,
      fun s hs => ?_⟩
    · obtain rfl : c = .sortKeys ks := hks
      cases hc with
      | sortKeys _ hne hkeys => exact ⟨hne, fun k hk => (hkeys k hk).isOne⟩
    · obtain rfl : c = .numbers r := hr
      cases hc with
      | numbers _ hr => exact hr.isProper
    · obtain rfl : c = .dates r := hr
      cases hc with
      | dates _ hr => exact hr.isProper
    · obtain rfl : c = .text s := hs
      cases hc with
      | text _ hws => exact ⟨_, rfl, fun w hw => (hws w hw).imp Shape.Genuine.isOne Shape.Genuine.isOne⟩

end Qualifier

/-! ## Filters -/

namespace Filter

/-- A blank text is read as the empty filter, and any other as one whose leaves are all read from it. -/
theorem blank_or_isRead_of_parse {s : String} {f : Filter} (h : parse s = .ok f) :
    (f = empty ∧ ∀ c ∈ s.toList, Text.isBlank c = true) ∨
      (¬ ∀ c ∈ s.toList, Text.isBlank c = true) ∧ ∀ q ∈ f.qualifiers, q.IsRead := by
  obtain ⟨ss, hss, hwhole⟩ := parse_eq_ok_iff.1 h
  cases hwhole with
  | empty => exact .inl ⟨rfl, Token.lexes_nil_iff.1 hss⟩
  | expression hread =>
    have hnotBlank : ¬ ∀ c ∈ s.toList, Text.isBlank c = true := fun hblank =>
      hread.ne_nil (hss.unique (.done hblank))
    exact .inr ⟨hnotBlank, fun q hq => (legible_of_reads hss hread q hq).isRead⟩

theorem ne_empty_of_isRead {f : Filter} (h : ∀ q ∈ f.qualifiers, q.IsRead) : f ≠ empty := by
  rintro rfl
  exact (h .empty (List.mem_singleton_self _)).nonempty rfl

/-- A text that is read is read as the empty filter exactly if it is blank, and otherwise as a filter all of
whose leaves are named and hold what goes with their names. -/
theorem parse_shape {s : String} {f : Filter} (h : parse s = .ok f) :
    (f = empty ↔ ∀ c ∈ s.toList, Text.isBlank c = true) ∧ (f ≠ empty → ∀ q ∈ f.qualifiers, q.IsRead) := by
  rcases blank_or_isRead_of_parse h with ⟨rfl, hblank⟩ | ⟨hblank, hread⟩
  · exact ⟨iff_of_true rfl hblank, fun hne => absurd rfl hne⟩
  · exact ⟨iff_of_false (ne_empty_of_isRead hread) hblank, fun _ => hread⟩

/-- A phrase with a day in it, and sort keys. -/
theorem parse_shape_sorted : ∃ f, parse "\"a 2020-01-01\" Sort :~b" = .ok f ∧
    f.qualifiers = [.keyword "a 2020-01-01", .named "sort" (.sortKeys [⟨"b", true⟩])] ∧
      ∀ q ∈ f.qualifiers, q.IsRead := by
  have hparse : parse "\"a 2020-01-01\" Sort :~b" =
      .ok (and (leaf (.keyword "a 2020-01-01")) (leaf (.named "sort" (.sortKeys [⟨"b", true⟩])))) := by
    decide +kernel
  exact ⟨_, hparse, rfl, (parse_shape hparse).2 (by decide)⟩

end Filter

end IssueQuery
