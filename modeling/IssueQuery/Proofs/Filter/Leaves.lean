/-
What the leaves of a filter that was read can be. Their texts are made of tokens, their numbers have
no sign, the years of their dates have four digits, and their ranges are of three forms.
-/
import IssueQuery.Proofs.Calendar.Notation
import IssueQuery.Proofs.Filter.Acceptance
import IssueQuery.Proofs.Qualifier.Name

namespace IssueQuery

open Token (Shape)
open Qualifier (Content IsName)

/-- The text of the token is a token by itself. -/
def Token.Shape.Genuine (s : Shape) : Prop := firstMatch? s.text.toList = some (s.kind, s.text.toList.length)

/-! ## Legible qualifiers -/

namespace Qualifier

/-- A text that may stand between quotes. -/
def IsWord (s : String) : Prop :=
  Shape.Genuine ⟨.symbol, s⟩ ∨ Shape.Genuine ⟨.date, s⟩

/-- A number that a symbol denotes. -/
def IsPlainNumber (n : Int) : Prop := ∃ k : Nat, n = k ∧ (k : Int) < Text.int64Bound

/-- A range as it is written: between two bounds, or on one side of a bound. -/
inductive IsWrittenRange {α : Type} (P : α → Prop) : Range α → Prop
  | between {a b : α} : P a → P b → IsWrittenRange P (.between a b)
  | above {a : α} {strict : Bool} : P a → IsWrittenRange P (.above a strict)
  | below {a : α} {strict : Bool} : P a → IsWrittenRange P (.below a strict)

/-- Content that the notation of filters can tell. -/
inductive IsLegible (name : String) : Content → Prop
  | text {ws : List String} :
    Kind.ofName name ≠ .sort → (∀ w ∈ ws, IsWord w) → IsLegible name (.text (" ".intercalate ws))
  | date {d : Date} : Kind.ofName name ≠ .sort → d.IsPlain → IsLegible name (.date d)
  | dates {r : Range Date} : Kind.ofName name ≠ .sort → IsWrittenRange Date.IsPlain r → IsLegible name (.dates r)
  | number {n : Int} : Kind.ofName name ≠ .sort → IsPlainNumber n → IsLegible name (.number n)
  | numbers {r : Range Int} :
    Kind.ofName name ≠ .sort → IsWrittenRange IsPlainNumber r → IsLegible name (.numbers r)
  | sortKeys {ks : List SortKey} : Kind.ofName name = .sort → ks ≠ [] →
    (∀ k ∈ ks, Shape.Genuine ⟨.symbol, k.key⟩) → IsLegible name (.sortKeys ks)

/-- A leaf that the notation of filters can tell. -/
def Legible : Qualifier → Prop
  | empty => False
  | named name content => IsName name ∧ IsLegible name content

/-- A keyword whose content is a text; the notation can tell no other content of a keyword. -/
def HasPlainKeyword (q : Qualifier) : Prop := q.kind = .keyword → ∃ s, q.content = .text s

end Qualifier

namespace Filter

open Qualifier (IsWord IsPlainNumber IsWrittenRange IsLegible)

/-! ## Contents that were read -/

/-- A symbol does not begin with a sign. -/
theorem not_sign_of_genuine {w : String} (h : Shape.Genuine ⟨.symbol, w⟩) :
    ∀ c ∈ w.toList.head?, c ≠ '-' ∧ c ≠ '+' := by
  intro c hc
  unfold Shape.Genuine at h
  dsimp only at h
  generalize w.toList = cs at h hc
  cases Token.isSymbol_of_firstMatch? h with
  | mk hstart =>
    obtain rfl := Option.some.inj hc
    constructor <;> rintro rfl <;> exact absurd hstart (by decide +kernel)

theorem isPlainNumber_of_number? {s : Shape} {n : Int} (hs : s.Genuine) (h : s.number? = some n) :
    IsPlainNumber n := by
  have hk := kind_of_number? h
  rw [Shape.Genuine, hk] at hs
  rw [Shape.number?, if_pos hk] at h
  obtain ⟨k, hn, hlt, -⟩ := Text.exists_of_int64? (not_sign_of_genuine hs) h
  exact ⟨k, hn, hlt⟩

theorem isPlain_of_date? {s : Shape} {d : Date} (hs : s.Genuine) (h : s.date? = some d) : d.IsPlain := by
  have hk := kind_of_date? h
  unfold Shape.Genuine at hs
  rw [hk] at hs
  rw [Shape.date?, if_pos hk] at h
  obtain ⟨y, rest, hy, hcs⟩ : ∃ y rest, Token.IsRun 4 4 y ∧ s.text.toList = y ++ '-' :: rest := by
    generalize s.text.toList = cs at hs
    cases Token.isDate_of_firstMatch? hs with
    | mk hy => exact ⟨_, _, hy, rfl⟩
  exact Date.isPlain_of_ofText? hy hcs h

theorem exists_of_isSpan_genuine {α : Type} {value? : Shape → Option α} {one : α → Content}
    {range : Range α → Content} {P : α → Prop} (hP : ∀ {s a}, s.Genuine → value? s = some a → P a)
    {ss : List Shape} {c : Content} (hss : ∀ s ∈ ss, s.Genuine) (h : IsSpan value? one range ss c) :
    (∃ a, P a ∧ c = one a) ∨ ∃ r, IsWrittenRange P r ∧ c = range r := by
  cases h with
  | one ha => exact .inl ⟨_, hP (hss _ (by simp)) ha, rfl⟩
  | between ha _ hb => exact .inr ⟨_, .between (hP (hss _ (by simp)) ha) (hP (hss _ (by simp)) hb), rfl⟩
  | onwards ha => exact .inr ⟨_, .above (hP (hss _ (by simp)) ha), rfl⟩
  | above _ ha => exact .inr ⟨_, .above (hP (hss _ (by simp)) ha), rfl⟩
  | atLeast _ ha => exact .inr ⟨_, .above (hP (hss _ (by simp)) ha), rfl⟩
  | below _ ha => exact .inr ⟨_, .below (hP (hss _ (by simp)) ha), rfl⟩
  | atMost _ ha => exact .inr ⟨_, .below (hP (hss _ (by simp)) ha), rfl⟩

theorem genuine_of_isKeys {ss : List Shape} {ks : List SortKey} (h : IsKeys ss ks) (hss : ∀ s ∈ ss, s.Genuine) :
    ks ≠ [] ∧ ∀ k ∈ ks, Shape.Genuine ⟨.symbol, k.key⟩ := by
  have hkey {us : List Shape} {k : SortKey} (h : IsKey us k) (hus : ∀ s ∈ us, s.Genuine) :
      Shape.Genuine ⟨.symbol, k.key⟩ := by
    cases h with
    | @plain s hk => have := hus s (by simp); rwa [Shape.Genuine, hk] at this
    | @reversed n s _ hk => have := hus s (by simp); rwa [Shape.Genuine, hk] at this
  induction h with
  | one hk => exact ⟨by simp, by simpa using hkey hk hss⟩
  | cons hk _ _ ih =>
    refine ⟨by simp, fun k hmem => ?_⟩
    rcases List.mem_cons.1 hmem with rfl | hmem
    · exact hkey hk fun s hs => hss s (by simp [hs])
    · exact (ih fun s hs => hss s (by simp [hs])).2 k hmem

theorem words_of_isQuoted {ss : List Shape} {s : String} (h : IsQuoted ss s) (hss : ∀ s ∈ ss, s.Genuine) :
    ∃ ws, (∀ w ∈ ws, IsWord w) ∧ s = " ".intercalate ws := by
  cases h with
  | @mk _ _ words _ hw _ =>
    refine ⟨words.map Shape.text, fun w hmem => ?_, rfl⟩
    obtain ⟨u, hu, rfl⟩ := List.mem_map.1 hmem
    have hg : u.Genuine := hss u (by simp [hu])
    rcases hw u hu with hk | hk
    · rw [Shape.Genuine, hk] at hg; exact .inl hg
    · rw [Shape.Genuine, hk] at hg; exact .inr hg

theorem isLegible_word {name s : String} (hname : Qualifier.Kind.ofName name ≠ .sort) (hs : IsWord s) :
    IsLegible name (.text s) := by
  have : IsLegible name (.text (" ".intercalate [s])) := .text hname (by simpa using hs)
  simpa using this

theorem isLegible_of_isContent {name : String} {ss : List Shape} {c : Content} (h : IsContent name ss c)
    (hss : ∀ s ∈ ss, s.Genuine) : IsLegible name c := by
  cases h with
  | sortKeys hs hks =>
    obtain ⟨hne, hkeys⟩ := genuine_of_isKeys hks hss
    exact .sortKeys hs hne hkeys
  | dates hs hd =>
    rcases exists_of_isSpan_genuine isPlain_of_date? hss hd with ⟨d, hplain, rfl⟩ | ⟨r, hr, rfl⟩
    · exact .date hs hplain
    · exact .dates hs hr
  | numbers hs hn =>
    rcases exists_of_isSpan_genuine isPlainNumber_of_number? hss hn with ⟨n, hplain, rfl⟩ | ⟨r, hr, rfl⟩
    · exact .number hs hplain
    · exact .numbers hs hr
  | quoted hs hq =>
    obtain ⟨ws, hws, rfl⟩ := words_of_isQuoted hq hss
    exact .text hs hws
  | @symbol s hs hk _ =>
    have hg : s.Genuine := hss s (by simp)
    rw [Shape.Genuine, hk] at hg
    exact isLegible_word hs (.inl hg)

/-! ## Leaves of a phrase -/

/-- Whatever holds of the leaves that single tokens, phrases and qualifiers give, holds of all. -/
theorem Derives.forall_qualifiers {P : Qualifier → Prop} {Q : Shape → Prop}
    (hsymbol : ∀ s, Q s → s.kind = .symbol → P (.keyword s.text))
    (hquoted : ∀ us s, (∀ u ∈ us, Q u) → IsQuoted us s → P (.keyword s))
    (hnamed : ∀ s us c, Q s → s.kind = .qualifier → (∀ u ∈ us, Q u) → IsContent s.name us c → P (.named s.name c))
    {phrase : Phrase} {ss : List Shape} {f : Filter} (h : Derives phrase ss f) (hss : ∀ s ∈ ss, Q s) :
    ∀ q ∈ f.qualifiers, P q := by
  have hchoice {s : Shape} {us : List Shape} {f : Filter} (hs : Q s) (hk : s.kind = .qualifier)
      (h : IsChoice s.name us f) (hus : ∀ u ∈ us, Q u) : ∀ q ∈ f.qualifiers, P q := by
    induction h with
    | one hc => simpa [qualifiers] using hnamed s _ _ hs hk hus hc
    | or _ _ hc ih =>
      rintro q hq
      rcases List.mem_append.1 hq with hq | hq
      · exact ih (fun u hu => hus u (by simp [hu])) q hq
      · obtain rfl := List.mem_singleton.1 hq
        exact hnamed s _ _ hs hk (fun u hu => hus u (by simp [hu])) hc
  have hboth {ss us : List Shape} {f g : Filter} (h : ∀ s ∈ ss ++ us, Q s)
      (hf : (∀ s ∈ ss, Q s) → ∀ q ∈ f.qualifiers, P q) (hg : (∀ s ∈ us, Q s) → ∀ q ∈ g.qualifiers, P q) :
      ∀ q ∈ f.qualifiers ++ g.qualifiers, P q := by
    rintro q hq
    rcases List.mem_append.1 hq with hq | hq
    · exact hf (fun s hs => h s (List.mem_append_left _ hs)) q hq
    · exact hg (fun s hs => h s (List.mem_append_right _ hs)) q hq
  induction h with
  | @symbol s hk => simpa [qualifiers] using hsymbol s (hss s (by simp)) hk
  | quoted hq => simpa [qualifiers] using hquoted _ _ hss hq
  | qualifier hk hc => exact hchoice (hss _ (by simp)) hk hc fun u hu => hss u (by simp [hu])
  | not _ _ ih => exact ih fun s hs => hss s (by simp [hs])
  | brackets _ _ _ ih => exact ih fun s hs => hss s (by simp [hs])
  | operand _ ih => exact ih hss
  | and _ _ _ ihf ihg => exact hboth hss ihf fun h => ihg fun s hs => h s (by simp [hs])
  | juxtaposed _ _ ihf ihg => exact hboth hss ihf ihg
  | conjunction _ ih => exact ih hss
  | or _ _ _ ihf ihg => exact hboth hss ihf fun h => ihg fun s hs => h s (by simp [hs])

theorem isName_keyword : IsName "keyword" :=
  (Qualifier.isName_of_mem_names (show ("keyword", .keyword) ∈ Qualifier.Kind.names by decide)).1

theorem Derives.legible {phrase : Phrase} {ss : List Shape} {f : Filter} (h : Derives phrase ss f)
    (hss : ∀ s ∈ ss, s.Genuine) : ∀ q ∈ f.qualifiers, q.Legible := by
  have hkeyword : Qualifier.Kind.ofName "keyword" ≠ .sort := by decide
  refine h.forall_qualifiers (fun s hs hk => ?_) (fun us s hus hq => ?_) (fun s us c hs hk hus hc => ?_) hss
  · rw [Shape.Genuine, hk] at hs
    exact ⟨isName_keyword, isLegible_word hkeyword (.inl hs)⟩
  · exact ⟨isName_keyword, isLegible_of_isContent (.quoted hkeyword hq) hus⟩
  · exact ⟨Qualifier.isName_of_firstMatch? hk hs, isLegible_of_isContent hc hus⟩

theorem Derives.hasPlainKeyword {phrase : Phrase} {ss : List Shape} {f : Filter} (h : Derives phrase ss f)
    (hss : ∀ s ∈ ss, s.kind = .qualifier → Qualifier.Kind.ofName s.name ≠ .keyword) :
    ∀ q ∈ f.qualifiers, q.HasPlainKeyword := by
  refine h.forall_qualifiers (fun s _ _ _ => ⟨_, rfl⟩) (fun _ s _ _ _ => ⟨s, rfl⟩) ?_ hss
  exact fun s us c hs hk _ _ hkey => absurd hkey (hs hk)

/-! ## Leaves of a filter -/

theorem legible_of_reads {cs : List Char} {ss : List Shape} {f : Filter} (hl : Token.Lexes cs ss)
    (h : Reads (.expression 0) ss f []) : ∀ q ∈ f.qualifiers, q.Legible := by
  obtain ⟨us, g, hus, hg, hc⟩ := h.derives
  rw [List.append_nil] at hus
  subst hus
  rw [qualifiers_congr hc]
  exact hg.legible hl.genuine

theorem hasPlainKeyword_of_readsWhole {ss : List Shape} {f : Filter} (h : ReadsWhole ss f)
    (hss : ∀ s ∈ ss, s.kind = .qualifier → Qualifier.Kind.ofName s.name ≠ .keyword) :
    ∀ q ∈ f.qualifiers, q.HasPlainKeyword := by
  cases h with
  | empty =>
    rintro q hq hk
    obtain rfl := List.mem_singleton.1 hq
    cases hk
  | expression h =>
    obtain ⟨us, g, hus, hg, hc⟩ := h.derives
    rw [List.append_nil] at hus
    subst hus
    rw [qualifiers_congr hc]
    exact hg.hasPlainKeyword hss

end Filter

end IssueQuery
