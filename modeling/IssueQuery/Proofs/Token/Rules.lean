/-
The lexical rules. The rules for dates, qualifiers and symbols take the longest text of a class
that the input begins with, the others the first of a few spellings. So a rule depends on nothing
after the text that it takes, and no token goes on into a text that breaks.
-/
import IssueQuery.Proofs.Text.Classes
import IssueQuery.Token.Lexer

namespace IssueQuery.Token

/-! ## Classes of texts -/

/-- Between `least` and `most` digits. -/
structure IsRun (least most : Nat) (ds : List Char) : Prop where
  least : least ≤ ds.length
  most : ds.length ≤ most
  digits : ∀ c ∈ ds, c.isDigit = true

/-- Four digits, and twice a hyphen and one or two digits. -/
inductive IsDate : List Char → Prop
  | mk {y m d : List Char} :
    IsRun 4 4 y → IsRun 1 2 m → IsRun 1 2 d → IsDate (y ++ '-' :: (m ++ '-' :: d))

/-- Letters, with single hyphens between some of them. -/
inductive IsHyphenated : List Char → Prop
  | letter {c : Char} : c.isAlpha = true → IsHyphenated [c]
  | cons {c : Char} {cs : List Char} : c.isAlpha = true → IsHyphenated cs → IsHyphenated (c :: cs)
  | hyphen {c : Char} {cs : List Char} :
    c.isAlpha = true → IsHyphenated cs → IsHyphenated (c :: '-' :: cs)

/-- A hyphenated word, blanks, and a colon. -/
inductive IsQualifier : List Char → Prop
  | mk {w blanks : List Char} :
    IsHyphenated w → (∀ b ∈ blanks, Text.isBlank b = true) → IsQualifier (w ++ (blanks ++ [':']))

/-- A character that starts a symbol, and any that continue it. -/
inductive IsSymbol : List Char → Prop
  | mk {c : Char} {cs : List Char} :
    startsSymbol c = true → (∀ d ∈ cs, continuesSymbol d = true) → IsSymbol (c :: cs)

/-! ## Where tokens end -/

/-- Whether some token may have the character after its first one, blanks before a colon apart. -/
def prolongs (c : Char) : Bool := continuesSymbol c || "&|=:".toList.contains c

/-- No token that begins before the text goes on into it. -/
structure Breaks (cs : List Char) : Prop where
  head : ∀ c ∈ cs.head?, prolongs c = false
  colon : ':' ∉ (Text.trimStart cs).head?

/-- A rule that depends on the text it takes alone, and takes nothing of a text that breaks. -/
structure IsLocal (rule : Rule) : Prop where
  le_length {cs : List Char} {n : Nat} : rule cs = some n → n ≤ cs.length
  of_append {a b : List Char} : (∀ n, rule (a ++ b) = some n → n ≤ a.length) → rule a = rule (a ++ b)
  append_le {a b : List Char} {n : Nat} : a ≠ [] → Breaks b → rule (a ++ b) = some n → n ≤ a.length

theorem IsLocal.append_eq {rule : Rule} (h : IsLocal rule) {a b : List Char} (ha : a ≠ []) (hb : Breaks b) :
    rule (a ++ b) = rule a :=
  (h.of_append fun _ hn => h.append_le ha hb hn).symm

/-- A rule that takes nothing of the whole takes nothing of its beginning. -/
theorem IsLocal.eq_none {rule : Rule} (h : IsLocal rule) {a b : List Char} (hnone : rule (a ++ b) = none) :
    rule a = none := by
  have hle (n : Nat) (hn : rule (a ++ b) = some n) : n ≤ a.length := by
    rw [hnone] at hn
    cases hn
  exact (h.of_append hle).trans hnone

/-- The rule takes the longest text of the class that the input begins with, or nothing. -/
structure TakesLongest (rule : Rule) (L : List Char → Prop) : Prop where
  le_length {cs : List Char} {n : Nat} : rule cs = some n → n ≤ cs.length
  taken {cs : List Char} {n : Nat} : rule cs = some n → L (cs.take n)
  longest {p cs : List Char} : L p → p <+: cs → ∃ n, rule cs = some n ∧ p.length ≤ n

theorem TakesLongest.isLocal {rule : Rule} {L : List Char → Prop} (h : TakesLongest rule L)
    (hL : ∀ {p a b}, L p → p <+: a ++ b → a ≠ [] → Breaks b → p.length ≤ a.length) : IsLocal rule where
  le_length := h.le_length
  of_append {a b} hle := by
    -- what the rule takes of either text, the other begins with too
    have hwhole {n : Nat} (hn : rule a = some n) : ∃ m, rule (a ++ b) = some m ∧ n ≤ m := by
      have := h.longest (h.taken hn) ((List.take_prefix _ a).trans (List.prefix_append a b))
      rwa [List.length_take_of_le (h.le_length hn)] at this
    cases hab : rule (a ++ b) with
    | none =>
      refine Option.eq_none_iff_forall_ne_some.2 fun n hn => ?_
      obtain ⟨m, hm, -⟩ := hwhole hn
      rw [hab] at hm
      cases hm
    | some m =>
      have hp := h.taken hab
      rw [List.take_append_of_le_length (hle m hab)] at hp
      obtain ⟨n, hn, hmn⟩ := h.longest hp (List.take_prefix _ a)
      rw [List.length_take_of_le (hle m hab)] at hmn
      obtain ⟨m', hm', hnm⟩ := hwhole hn
      rw [hab] at hm'
      cases hm'
      rw [hn, le_antisymm hnm hmn]
  append_le {a b n} ha hb hn := by
    have := hL (h.taken hn) (List.take_prefix _ _) ha hb
    rwa [List.length_take_of_le (h.le_length hn)] at this

/-- A text whose characters after the first all prolong tokens stops where a text breaks. -/
theorem length_le_of_tail {p a b : List Char} (hp : ∀ c ∈ p.tail, prolongs c = true)
    (h : p <+: a ++ b) (ha : a ≠ []) (hb : Breaks b) : p.length ≤ a.length := by
  -- if it did not stop, the next of its characters would be the first of `b`
  by_contra hlt
  obtain ⟨x, a, rfl⟩ := List.exists_cons_of_ne_nil ha
  obtain ⟨q, rfl⟩ := List.prefix_of_prefix_length_le (List.prefix_append _ b) h (by omega)
  have hq : q <+: b := (List.prefix_append_right_inj _).1 h
  cases q with
  | nil => simp at hlt
  | cons c q =>
    obtain ⟨r, rfl⟩ := hq
    have h1 := hb.head c (by simp)
    rw [hp c (by simp)] at h1
    cases h1

/-! ## Spellings -/

theorem spelling_cons (s : String) (ss : List String) (cs : List Char) :
    spelling (s :: ss) cs = if s.toList <+: cs then some s.toList.length else spelling ss cs := by
  unfold spelling
  rw [List.find?_cons]
  by_cases h : s.toList <+: cs
  · rw [if_pos h, List.isPrefixOf_iff_prefix.2 h, String.length_toList]; rfl
  · rw [if_neg h, Bool.eq_false_iff.2 (mt List.isPrefixOf_iff_prefix.1 h)]

theorem isLocal_spelling {ss : List String} (hs : ∀ s ∈ ss, ∀ c ∈ s.toList.tail, prolongs c = true) :
    IsLocal (spelling ss) := by
  induction ss with
  | nil => exact ⟨nofun, fun _ => rfl, nofun⟩
  | cons s ss ih =>
    have ih := ih fun s hs' => hs s (List.mem_cons_of_mem _ hs')
    -- a spelling that only the longer text begins with does not fit into the shorter one
    refine ⟨fun {cs n} hn => ?_, fun {a b} hle => ?_, fun {a b n} ha hb hn => ?_⟩
    · rw [spelling_cons] at hn
      split at hn
      · rename_i hp
        cases hn
        exact hp.length_le
      · exact ih.le_length hn
    · rw [spelling_cons] at hle
      rw [spelling_cons, spelling_cons]
      by_cases hp : s.toList <+: a ++ b
      · rw [if_pos hp] at hle ⊢
        rw [if_pos (List.prefix_of_prefix_length_le hp (List.prefix_append a b) (hle _ rfl))]
      · rw [if_neg hp] at hle ⊢
        rw [if_neg fun hp' => hp (hp'.trans (List.prefix_append a b))]
        exact ih.of_append hle
    · rw [spelling_cons] at hn
      split at hn
      · rename_i hp
        cases hn
        exact length_le_of_tail (hs s (List.mem_cons_self ..)) hp ha hb
      · exact ih.append_le ha hb hn

/-! ## Dates -/

theorem isRun_take_digitCount (most : Nat) (cs : List Char) :
    IsRun (digitCount most cs) most (cs.take (digitCount most cs)) := by
  have hpre : (cs.take most).takeWhile Char.isDigit <+: cs :=
    (List.takeWhile_prefix _).trans (List.take_prefix _ _)
  have htake : cs.take (digitCount most cs) = (cs.take most).takeWhile Char.isDigit :=
    (List.prefix_iff_eq_take.1 hpre).symm
  rw [htake]
  refine ⟨le_rfl, ?_, fun c hc => List.mem_takeWhile_imp hc⟩
  exact (List.takeWhile_prefix _).length_le.trans (List.length_take_le _ _)

theorem digitCount_le_length (most : Nat) (cs : List Char) : digitCount most cs ≤ cs.length :=
  ((List.takeWhile_prefix _).trans (List.take_prefix _ _)).length_le

theorem le_digitCount {least most : Nat} {ds cs : List Char} (h : IsRun least most ds) (hp : ds <+: cs) :
    ds.length ≤ digitCount most cs := by
  obtain ⟨rest, rfl⟩ := hp
  unfold digitCount
  rw [List.take_append, List.take_of_length_le h.most, List.takeWhile_append_of_pos h.digits,
    List.length_append]
  omega

/-- A run of digits is counted in full if no digit follows it. -/
theorem digitCount_append {least most : Nat} {ds cs : List Char} (h : IsRun least most ds)
    (hcs : ∀ c ∈ cs.head?, c.isDigit = false) : digitCount most (ds ++ cs) = ds.length := by
  have hnil : (cs.take (most - ds.length)).takeWhile Char.isDigit = [] := by
    cases cs with
    | nil => simp
    | cons c cs =>
      have := hcs c (by simp)
      cases most - ds.length <;> simp [this]
  unfold digitCount
  rw [List.take_append, List.take_of_length_le h.most, List.takeWhile_append_of_pos h.digits, hnil,
    List.append_nil]

theorem dateLength_append {y m : List Char} (hy : IsRun 4 4 y) (hm : IsRun 1 2 m) (rest : List Char) :
    dateLength (y ++ '-' :: (m ++ '-' :: rest)) =
      if digitCount 2 rest = 0 then none else some (4 + 1 + m.length + 1 + digitCount 2 rest) := by
  have hy4 : y.length = 4 := le_antisymm hy.most hy.least
  obtain ⟨k, hk⟩ : ∃ k, m.length = k + 1 := ⟨m.length - 1, by have := hm.least; omega⟩
  have hcount : digitCount 2 (m ++ '-' :: rest) = k + 1 := by
    rw [digitCount_append hm (by simp), hk]
  unfold dateLength
  rw [digitCount_append hy (by simp), List.drop_left' hy4, hy4]
  simp only [hcount, List.drop_left' hk, hk]

/-- A date begins with a year, a month and a hyphen. -/
theorem exists_of_dateLength {cs : List Char} {n : Nat} (h : dateLength cs = some n) :
    ∃ y m rest, IsRun 4 4 y ∧ IsRun 1 2 m ∧ cs = y ++ '-' :: (m ++ '-' :: rest) := by
  unfold dateLength at h
  split at h
  · rename_i month h4 hdrop
    split at h
    · cases h
    · rename_i k hk
      split at h
      · rename_i day hday
        have hy := isRun_take_digitCount 4 cs
        have hm := isRun_take_digitCount 2 month
        rw [h4] at hy
        rw [hk] at hm
        refine ⟨cs.take 4, month.take (k + 1), day, hy, ⟨?_, hm.most, hm.digits⟩, ?_⟩
        · exact le_trans (Nat.le_add_left 1 k) hm.least
        · rw [← hday, List.take_append_drop, ← hdrop, List.take_append_drop]
      · cases h
  · cases h

theorem dateLength_append_eq_some {y m rest : List Char} {n : Nat} (hy : IsRun 4 4 y) (hm : IsRun 1 2 m)
    (h : dateLength (y ++ '-' :: (m ++ '-' :: rest)) = some n) :
    0 < digitCount 2 rest ∧ n = y.length + (1 + (m.length + (1 + digitCount 2 rest))) := by
  have := hy.least
  have := hy.most
  rw [dateLength_append hy hm, Option.ite_none_left_eq_some] at h
  obtain ⟨hd, hn⟩ := h
  cases hn
  omega

theorem takesLongest_dateLength : TakesLongest dateLength IsDate where
  le_length {cs n} h := by
    obtain ⟨y, m, rest, hy, hm, rfl⟩ := exists_of_dateLength h
    obtain ⟨-, rfl⟩ := dateLength_append_eq_some hy hm h
    have := digitCount_le_length 2 rest
    simp only [List.length_append, List.length_cons]
    omega
  taken {cs n} h := by
    obtain ⟨y, m, rest, hy, hm, rfl⟩ := exists_of_dateLength h
    obtain ⟨hpos, rfl⟩ := dateLength_append_eq_some hy hm h
    have hrun := isRun_take_digitCount 2 rest
    rw [List.take_length_add_append, Nat.add_comm 1, List.take_succ_cons, List.take_length_add_append, Nat.add_comm 1,
      List.take_succ_cons]
    exact ⟨hy, hm, by have := hrun.least; omega, hrun.most, hrun.digits⟩
  longest := by
    rintro _ _ ⟨hy, hm, hd⟩ ⟨rest, rfl⟩
    rename_i y m d
    have hle := le_digitCount hd (List.prefix_append d rest)
    have := hd.least
    have := hy.most
    simp only [List.append_assoc, List.cons_append]
    rw [dateLength_append hy hm, if_neg (by omega)]
    refine ⟨_, rfl, ?_⟩
    simp only [List.length_append, List.length_cons]
    omega

theorem prolongs_of_isAlphanum {c : Char} (h : c.isAlphanum = true) : prolongs c = true := by
  simp [prolongs, continuesSymbol, Text.isWord_of_isAlphanum h]

theorem prolongs_hyphen : prolongs '-' = true := by decide +kernel

theorem isLocal_dateLength : IsLocal dateLength := by
  refine takesLongest_dateLength.isLocal ?_
  rintro _ a b ⟨hy, hm, hd⟩ hp ha hb
  refine length_le_of_tail (fun c hc => ?_) hp ha hb
  have hc := List.mem_of_mem_tail hc
  simp only [List.mem_append, List.mem_cons] at hc
  rcases hc with hc | rfl | hc | rfl | hc
  · exact prolongs_of_isAlphanum (Text.isAlphanum_of_isDigit (hy.digits c hc))
  · exact prolongs_hyphen
  · exact prolongs_of_isAlphanum (Text.isAlphanum_of_isDigit (hm.digits c hc))
  · exact prolongs_hyphen
  · exact prolongs_of_isAlphanum (Text.isAlphanum_of_isDigit (hd.digits c hc))

/-! ## Qualifiers -/

theorem IsHyphenated.ne_nil {w : List Char} (h : IsHyphenated w) : w ≠ [] := by
  cases h <;> exact List.cons_ne_nil _ _

theorem IsHyphenated.head {w : List Char} (h : IsHyphenated w) : ∀ c ∈ w.head?, c.isAlpha = true := by
  cases h <;> simpa

theorem IsHyphenated.prolongs {w : List Char} (h : IsHyphenated w) : ∀ c ∈ w, prolongs c = true := by
  have hletter {c : Char} (hc : c.isAlpha = true) : Token.prolongs c = true :=
    prolongs_of_isAlphanum (Text.isAlphanum_of_isAlpha hc)
  induction h with
  | letter hc => simpa using hletter hc
  | cons hc _ ih => simpa using ⟨hletter hc, ih⟩
  | hyphen hc _ ih => simpa using ⟨hletter hc, prolongs_hyphen, ih⟩

theorem hyphenatedLength_eq_zero {cs : List Char} (h : ∀ c ∈ cs.head?, c.isAlpha = false) :
    hyphenatedLength cs = 0 := by
  unfold hyphenatedLength
  split <;> simp_all

theorem hyphenatedLength_cons {c : Char} {cs : List Char} (hc : c.isAlpha = true) (hcs : '-' ∉ cs.head?) :
    hyphenatedLength (c :: cs) = 1 + hyphenatedLength cs := by
  rw [hyphenatedLength]
  · rw [if_pos hc]
  · rintro d ds rfl
    exact hcs rfl

theorem hyphenatedLength_append {w rest : List Char} (h : IsHyphenated w)
    (hrest : ∀ c ∈ rest.head?, c.isAlpha = false ∧ c ≠ '-') : hyphenatedLength (w ++ rest) = w.length := by
  have hnot {c : Char} (hc : c.isAlpha = true) : c ≠ '-' := by rintro rfl; revert hc; decide
  induction h with
  | letter hc =>
    rw [List.singleton_append, hyphenatedLength_cons hc fun hd => (hrest _ hd).2 rfl,
      hyphenatedLength_eq_zero fun c hc => (hrest c hc).1]
    rfl
  | @cons c cs hc hw ih =>
    obtain ⟨d, ds, rfl⟩ := List.exists_cons_of_ne_nil hw.ne_nil
    have hd := hw.head d (by simp)
    rw [List.cons_append, hyphenatedLength_cons hc (by simpa using hnot hd), ih, Nat.add_comm]
    rfl
  | @hyphen c cs hc hw ih =>
    obtain ⟨d, ds, rfl⟩ := List.exists_cons_of_ne_nil hw.ne_nil
    have hd := hw.head d (by simp)
    -- the rule takes a hyphen only with the letter behind it
    simp only [List.cons_append] at ih ⊢
    rw [hyphenatedLength, if_pos hc, if_pos hd, ih]
    simp only [List.length_cons]
    omega

theorem hyphenatedLength_ne_zero {c : Char} {cs : List Char} (hc : c.isAlpha = true) :
    hyphenatedLength (c :: cs) ≠ 0 := by
  unfold hyphenatedLength
  split
  · rename_i d ds h
    cases h
    rw [if_pos hc]
    split <;> omega
  · rename_i h
    cases h
    rw [if_pos hc]
    omega
  · rename_i h; cases h

theorem isHyphenated_take {cs : List Char} (h : hyphenatedLength cs ≠ 0) :
    IsHyphenated (cs.take (hyphenatedLength cs)) := by
  -- by the cases of the rule: a letter and a hyphen, a letter, or neither
  fun_induction hyphenatedLength cs with
  | case1 c d cs hc hd ih =>
    rw [Nat.add_comm]
    exact .hyphen hc (ih (hyphenatedLength_ne_zero hd))
  | case2 c d cs hc hd => exact .letter hc
  | case3 c d cs hc => exact absurd rfl h
  | case4 c cs hcs hc ih =>
    rw [Nat.add_comm, List.take_succ_cons]
    by_cases h0 : hyphenatedLength cs = 0
    · rw [h0, List.take_zero]; exact .letter hc
    · exact .cons hc (ih h0)
  | case5 c cs hcs hc => exact absurd rfl h
  | case6 => exact absurd rfl h

theorem isBlank_colon : Text.isBlank ':' = false := by decide

theorem qualifierLength_append {w blanks : List Char} (hw : IsHyphenated w)
    (hb : ∀ b ∈ blanks, Text.isBlank b = true) (rest : List Char) :
    qualifierLength (w ++ (blanks ++ ':' :: rest)) = some (w.length + (blanks.length + 1)) := by
  have hlen : hyphenatedLength (w ++ (blanks ++ ':' :: rest)) = w.length := by
    refine hyphenatedLength_append hw fun c hc => ?_
    cases blanks with
    | nil => cases hc; decide
    | cons b bs =>
      cases hc
      constructor
      · by_contra ha
        have := Text.isBlank_eq_false_of_isAlphanum (Text.isAlphanum_of_isAlpha (by simpa using ha))
        rw [hb c (by simp)] at this
        cases this
      · rintro rfl
        exact absurd (hb '-' (by simp)) (by decide)
  obtain ⟨n, hn⟩ : ∃ n, w.length = n + 1 := ⟨w.length - 1, by
    have := List.length_pos_of_ne_nil hw.ne_nil; omega⟩
  have htake : (blanks ++ ':' :: rest).takeWhile Text.isBlank = blanks := by
    rw [List.takeWhile_append_of_pos hb, List.takeWhile_cons_of_neg (by simp [isBlank_colon]), List.append_nil]
  unfold qualifierLength
  rw [hlen, hn]
  simp only [← hn, List.drop_left, htake]
  rw [← List.drop_drop, List.drop_left, List.drop_left]
  rfl

theorem exists_of_qualifierLength {cs : List Char} {n : Nat} (h : qualifierLength cs = some n) :
    ∃ w blanks rest, IsHyphenated w ∧ (∀ b ∈ blanks, Text.isBlank b = true) ∧
      cs = w ++ (blanks ++ ':' :: rest) := by
  unfold qualifierLength at h
  split at h
  · cases h
  · rename_i n hn
    dsimp only at h
    split at h
    · rename_i rest hrest
      have hw : IsHyphenated (cs.take (hyphenatedLength cs)) := isHyphenated_take (by omega)
      rw [hn] at hw
      refine ⟨cs.take (n + 1), (cs.drop (n + 1)).takeWhile Text.isBlank, rest, hw,
        fun b hb => List.mem_takeWhile_imp hb, ?_⟩
      rw [← List.drop_drop] at hrest
      have hpre : (cs.drop (n + 1)).takeWhile Text.isBlank <+: cs.drop (n + 1) := List.takeWhile_prefix _
      have htake := List.prefix_iff_eq_take.1 hpre
      rw [← hrest, htake, List.length_take, min_eq_left hpre.length_le]
      simp only [List.take_append_drop]
    · cases h

theorem takesLongest_qualifierLength : TakesLongest qualifierLength IsQualifier where
  le_length {cs n} h := by
    obtain ⟨w, blanks, rest, hw, hb, rfl⟩ := exists_of_qualifierLength h
    rw [qualifierLength_append hw hb] at h
    cases h
    simp only [List.length_append, List.length_cons]
    omega
  taken {cs n} h := by
    obtain ⟨w, blanks, rest, hw, hb, rfl⟩ := exists_of_qualifierLength h
    rw [qualifierLength_append hw hb] at h
    cases h
    rw [List.take_length_add_append, List.take_length_add_append]
    exact ⟨hw, hb⟩
  longest := by
    rintro _ _ ⟨hw, hb⟩ ⟨rest, rfl⟩
    simp only [List.append_assoc, List.singleton_append]
    exact ⟨_, qualifierLength_append hw hb rest, by simp⟩

theorem not_breaks_colon {blanks : List Char} (hb : ∀ b ∈ blanks, Text.isBlank b = true) (rest : List Char) :
    ¬ Breaks (blanks ++ ':' :: rest) := by
  intro h
  refine h.colon ?_
  rw [Text.trimStart, List.dropWhile_append_of_pos hb, List.dropWhile_cons_of_neg (by simp [isBlank_colon])]
  rfl

theorem isLocal_qualifierLength : IsLocal qualifierLength := by
  refine takesLongest_qualifierLength.isLocal ?_
  rintro _ a b ⟨hw, hbl⟩ hp ha hb
  rename_i w blanks
  by_contra hlt
  rw [not_le] at hlt
  obtain ⟨q, hq⟩ := List.prefix_of_prefix_length_le (List.prefix_append a b) hp hlt.le
  obtain ⟨r, hr⟩ := hp
  rw [← hq, List.append_assoc, List.append_cancel_left_eq] at hr
  -- `a` ends in the word, in the blanks, or behind the colon
  rcases List.append_eq_append_iff.1 hq with ⟨w', rfl, rfl⟩ | ⟨a', rfl, hq'⟩
  · cases w' with
    | nil => exact not_breaks_colon hbl r (by simpa [← hr] using hb)
    | cons c w' =>
      have := hb.head c (by simp [← hr])
      rw [hw.prolongs c (by simp)] at this
      cases this
  · rcases List.append_eq_append_iff.1 hq' with ⟨a'', rfl, hq''⟩ | ⟨blanks', rfl, rfl⟩
    · have := congrArg List.length hq''
      simp only [List.length_append, List.length_singleton] at this hlt
      have hq0 : a'' = [] := List.length_eq_zero_iff.1 (by omega)
      subst hq0
      rw [List.nil_append] at hq''
      subst hq''
      exact not_breaks_colon (List.forall_mem_nil _) r (by simpa [← hr] using hb)
    · refine not_breaks_colon (fun b hb => hbl b (List.mem_append_right _ hb)) r ?_
      simpa [← hr] using hb

/-! ## Symbols -/

theorem symbolLength_cons {c : Char} (hc : startsSymbol c = true) (cs : List Char) :
    symbolLength (c :: cs) = some ((cs.takeWhile continuesSymbol).length + 1) := by
  rw [symbolLength, if_pos hc, Nat.add_comm]

theorem symbolLength_eq_none {cs : List Char} (h : ∀ c ∈ cs.head?, startsSymbol c = false) :
    symbolLength cs = none := by
  cases cs with
  | nil => rfl
  | cons c cs => rw [symbolLength, if_neg (by simp [h c (by simp)])]

theorem exists_of_symbolLength {cs : List Char} {n : Nat} (h : symbolLength cs = some n) :
    ∃ c rest, cs = c :: rest ∧ startsSymbol c = true ∧ n = (rest.takeWhile continuesSymbol).length + 1 := by
  cases cs with
  | nil => cases h
  | cons c cs =>
    obtain ⟨hc, hn⟩ := Option.ite_none_right_eq_some.1 h
    cases hn
    exact ⟨c, cs, rfl, hc, Nat.add_comm ..⟩

theorem takesLongest_symbolLength : TakesLongest symbolLength IsSymbol where
  le_length {cs n} h := by
    obtain ⟨c, rest, rfl, -, rfl⟩ := exists_of_symbolLength h
    exact Nat.succ_le_succ (List.takeWhile_prefix _).length_le
  taken {cs n} h := by
    obtain ⟨c, rest, rfl, hc, rfl⟩ := exists_of_symbolLength h
    have hpre : rest.takeWhile continuesSymbol <+: rest := List.takeWhile_prefix _
    rw [List.take_succ_cons, ← List.prefix_iff_eq_take.1 hpre]
    exact ⟨hc, fun d hd => List.mem_takeWhile_imp hd⟩
  longest := by
    rintro _ _ ⟨hc, hcs⟩ ⟨rest, rfl⟩
    rw [List.cons_append]
    refine ⟨_, symbolLength_cons hc _, ?_⟩
    rw [List.takeWhile_append_of_pos hcs]
    simp only [List.length_cons, List.length_append]
    omega

theorem isLocal_symbolLength : IsLocal symbolLength := by
  refine takesLongest_symbolLength.isLocal ?_
  rintro _ a b ⟨hc, hcs⟩ hp ha hb
  refine length_le_of_tail (fun d hd => ?_) hp ha hb
  simp [prolongs, hcs d hd]

/-! ## All rules -/

theorem isLocal_of_mem_rules {r : Kind × Rule} (h : r ∈ rules) : IsLocal r.2 := by
  have htails : ∀ ss ∈ spellings, (ss.all fun s => s.toList.tail.all prolongs) = true := by decide +kernel
  rcases mem_rules_cases h with rfl | rfl | rfl | ⟨ss, hss, hrule⟩
  · exact isLocal_dateLength
  · exact isLocal_qualifierLength
  · exact isLocal_symbolLength
  · rw [hrule]
    exact isLocal_spelling fun s hs c hc => List.all_eq_true.1 (List.all_eq_true.1 (htails ss hss) s hs) c hc

end IssueQuery.Token
