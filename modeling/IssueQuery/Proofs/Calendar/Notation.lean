/-
Dates and instants that are written and read again. The years that the notation of filters can tell
have four digits; that of storage can tell them all.
-/
import IssueQuery.Calendar.Notation
import IssueQuery.Proofs.Text.Numeral
import IssueQuery.Proofs.Token.Rules

namespace IssueQuery

/-- The year has at most four digits and no sign. -/
def Date.IsPlain (d : Date) : Prop := 0 ≤ d.year ∧ d.year ≤ 9999

namespace Calendar

theorem trimStart_run {least most : Nat} {ds cs : List Char} (h : Token.IsRun least most ds) (hl : 0 < least) :
    Text.trimStart (ds ++ cs) = ds ++ cs := by
  cases ds with
  | nil => exact absurd h.least (by simp; omega)
  | cons d ds =>
    have hd := Text.isAlphanum_of_isDigit (h.digits d (List.mem_cons_self ..))
    exact Text.trimStart_cons (Text.isBlank_eq_false_of_isAlphanum hd)

/-- A run of digits is read in full up to a text that begins with none. -/
theorem digits_append {least most : Nat} {ds cs : List Char} (h : Token.IsRun least most ds)
    (hcs : ∀ c ∈ cs.head?, c.isDigit = false) : digits most (ds ++ cs) = (Text.natural? ds).map (·, cs) := by
  have hcount := Token.digitCount_append h hcs
  have hrun : ((ds ++ cs).take most).takeWhile Char.isDigit = ds := by
    have hpre : ((ds ++ cs).take most).takeWhile Char.isDigit <+: ds ++ cs :=
      (List.takeWhile_prefix _).trans (List.take_prefix _ _)
    rw [List.prefix_iff_eq_take.1 hpre]
    unfold Token.digitCount at hcount
    rw [hcount, List.take_left]
  unfold digits
  simp only [hrun, List.drop_left]

theorem twoDigits_append {ds cs : List Char} (h : Token.IsRun 1 2 ds) (hcs : ∀ c ∈ cs.head?, c.isDigit = false) :
    twoDigits (ds ++ cs) = (Text.natural? ds).map (·, cs) := by
  rw [twoDigits, trimStart_run h (by omega), digits_append h hcs]

theorem year_append {ds cs : List Char} (h : Token.IsRun 4 4 ds) (hcs : ∀ c ∈ cs.head?, c.isDigit = false) :
    year (ds ++ cs) = (Text.natural? ds).map fun n : Nat => ((n : Int), cs) := by
  have hsign : ∀ c ∈ (ds ++ cs).head?, c ≠ '-' ∧ c ≠ '+' := by
    cases ds with
    | nil => exact absurd h.least (by simp)
    | cons d ds =>
      rintro c hc
      have hd := h.digits d (List.mem_cons_self ..)
      obtain rfl : d = c := by simpa using hc
      constructor <;> rintro rfl <;> exact absurd hd (by decide)
  unfold year
  rw [trimStart_run h (by omega)]
  -- a run of digits has no sign
  split
  · rename_i heq; rw [heq] at hsign; exact absurd rfl (hsign '-' rfl).1
  · rename_i heq; rw [heq] at hsign; exact absurd rfl (hsign '+' rfl).2
  · rw [digits_append h hcs, Option.map_map]
    rfl

theorem mark_cons {c : Char} {cs : List Char} (hc : Text.isBlank c = false) : mark c (c :: cs) = some cs := by
  rw [mark, Text.trimStart_cons hc]
  simp

/-! ## Padded numerals -/

section Padded

variable {most width n : Nat} {cs : List Char} (hcs : ∀ c ∈ cs.head?, c.isDigit = false)
include hcs

theorem digits_zeroPadded (h : (Text.zeroPadded width n).toList.length ≤ most) :
    digits most ((Text.zeroPadded width n).toList ++ cs) = some (n, cs) := by
  have hrun : Token.IsRun 0 most (Text.zeroPadded width n).toList :=
    ⟨Nat.zero_le _, h, fun _ => Text.isDigit_of_mem_zeroPadded⟩
  rw [digits_append hrun hcs, Text.natural?_zeroPadded]
  rfl

theorem twoDigits_zeroPadded (h : n < 100) : twoDigits ((Text.zeroPadded 2 n).toList ++ cs) = some (n, cs) := by
  have hlength : (Text.zeroPadded 2 n).toList.length = 2 := Text.length_zeroPadded (by omega) h
  have hrun : Token.IsRun 1 2 (Text.zeroPadded 2 n).toList :=
    ⟨by omega, hlength.le, fun _ => Text.isDigit_of_mem_zeroPadded⟩
  rw [twoDigits_append hrun hcs, Text.natural?_zeroPadded]
  rfl

/-- The digits of a fraction tell its first places. -/
theorem fraction_zeroPadded (hw : 0 < width) (h9 : width ≤ 9) (h : n < 10 ^ width) :
    fraction ('.' :: ((Text.zeroPadded width n).toList ++ cs)) = some (n * 10 ^ (9 - width), cs) := by
  have hlength := Text.length_zeroPadded hw h
  have hnone : cs.dropWhile Char.isDigit = cs := by
    cases cs with
    | nil => rfl
    | cons c cs => exact List.dropWhile_cons_of_neg (by simp [hcs c rfl])
  have hplaces : width + cs.length - cs.length = width := Nat.add_sub_cancel ..
  rw [fraction, digits_zeroPadded hcs (hlength.le.trans h9)]
  simp only [Option.map_some, List.length_append, hlength, hplaces, hnone]
  rfl

theorem year_yearText (year : Int) : Calendar.year ((Date.yearText year).toList ++ cs) = some (year, cs) := by
  unfold Date.yearText
  split
  · rename_i h
    have hlength : (Text.zeroPadded 4 year.toNat).toList.length = 4 := Text.length_zeroPadded (by omega) (by omega)
    rw [year_append ⟨hlength.ge, hlength.le, fun _ => Text.isDigit_of_mem_zeroPadded⟩ hcs,
      Text.natural?_zeroPadded, Option.map_some, Int.toNat_of_nonneg h.1]
  · rename_i h
    -- a sign tells the reader to take all digits
    have hdigits : digits ((Text.zeroPadded 4 year.natAbs).toList ++ cs).length
        ((Text.zeroPadded 4 year.natAbs).toList ++ cs) = some (year.natAbs, cs) :=
      digits_zeroPadded hcs (by simp)
    split
    · have hyear : -(year.natAbs : Int) = year := by omega
      have hcons : ("-" ++ Text.zeroPadded 4 year.natAbs).toList ++ cs =
          '-' :: ((Text.zeroPadded 4 year.natAbs).toList ++ cs) := by simp
      unfold Calendar.year
      rw [hcons, Text.trimStart_cons (by decide)]
      simp only [hdigits, Option.map_some, hyear]
    · have hyear : (year.natAbs : Int) = year := by omega
      have hcons : ("+" ++ Text.zeroPadded 4 year.natAbs).toList ++ cs =
          '+' :: ((Text.zeroPadded 4 year.natAbs).toList ++ cs) := by simp
      unfold Calendar.year
      rw [hcons, Text.trimStart_cons (by decide)]
      simp only [hdigits, Option.map_some, hyear]

end Padded

end Calendar

namespace Date

/-! ## Writing -/

theorem isRun_zeroPadded {width n least : Nat} (hw : 0 < width) (hn : n < 10 ^ width) (hl : least ≤ width) :
    Token.IsRun least width (Text.zeroPadded width n).toList where
  least := by rw [Text.length_zeroPadded hw hn]; exact hl
  most := (Text.length_zeroPadded hw hn).le
  digits _ hc := Text.isDigit_of_mem_zeroPadded hc

theorem toList_text {d : Date} (h : d.IsPlain) : d.text.toList = (Text.zeroPadded 4 d.year.toNat).toList ++
    '-' :: ((Text.zeroPadded 2 d.month).toList ++ '-' :: (Text.zeroPadded 2 d.day).toList) := by
  unfold text yearText
  rw [if_pos (show 0 ≤ d.year ∧ d.year ≤ 9999 from h)]
  simp

theorem isRun_year {d : Date} (h : d.IsPlain) : Token.IsRun 4 4 (Text.zeroPadded 4 d.year.toNat).toList :=
  isRun_zeroPadded (by omega) (by have := h.1; have := h.2; omega) le_rfl

theorem isRun_month (d : Date) : Token.IsRun 1 2 (Text.zeroPadded 2 d.month).toList := by
  obtain ⟨-, -, -, h, -⟩ := d.valid
  exact isRun_zeroPadded (by omega) (by omega) (by omega)

theorem isRun_day (d : Date) : Token.IsRun 1 2 (Text.zeroPadded 2 d.day).toList :=
  isRun_zeroPadded (by omega) (by have := d.day_le; omega) (by omega)

theorem isDate_text {d : Date} (h : d.IsPlain) : Token.IsDate d.text.toList := by
  rw [toList_text h]
  exact .mk (isRun_year h) (isRun_month d) (isRun_day d)

theorem month_lt (d : Date) : d.month < 100 := by
  obtain ⟨-, -, -, h, -⟩ := d.valid
  omega

theorem date_text (d : Date) {cs : List Char} (hcs : ∀ c ∈ cs.head?, c.isDigit = false) :
    Calendar.date (d.text.toList ++ cs) = some (d, cs) := by
  have hmark (cs : List Char) : Calendar.mark '-' ('-' :: cs) = some cs := Calendar.mark_cons (by decide)
  have htext : d.text.toList ++ cs = (yearText d.year).toList ++
      '-' :: ((Text.zeroPadded 2 d.month).toList ++ '-' :: ((Text.zeroPadded 2 d.day).toList ++ cs)) := by
    simp [text]
  have hmonth (cs : List Char) : Calendar.twoDigits ((Text.zeroPadded 2 d.month).toList ++ '-' :: cs) =
      some (d.month, '-' :: cs) := Calendar.twoDigits_zeroPadded (by simp) d.month_lt
  have hday := Calendar.twoDigits_zeroPadded hcs (show d.day < 100 from d.day_le.trans_lt (by omega))
  unfold Calendar.date
  rw [htext, Calendar.year_yearText (by simp)]
  simp only [Option.bind_eq_bind, Option.bind_some, hmark, hmonth, hday, ofNumbers?, dif_pos d.valid]
  rfl

theorem ofText?_text (d : Date) : ofText? d.text = some d := by
  unfold ofText?
  rw [← List.append_nil d.text.toList, date_text d (by simp)]
  rfl

/-! ## Reading -/

theorem isPlain_of_ofText? {s : String} {d : Date} {y rest : List Char} (hy : Token.IsRun 4 4 y)
    (hs : s.toList = y ++ '-' :: rest) (h : ofText? s = some d) : d.IsPlain := by
  have hy4 : y.length = 4 := le_antisymm hy.most hy.least
  have hnat : Text.natural? y = some (Nat.ofDigitChars 10 y 0) := Text.natural?_eq hy.digits (by rintro rfl; cases hy4)
  have hlt := Text.ofDigitChars_lt hy.digits
  rw [hy4] at hlt
  unfold ofText? Calendar.date at h
  rw [hs, Calendar.year_append hy (by simp), hnat] at h
  simp only [Option.map_some, Option.bind_eq_bind, Option.bind_some, Option.bind_eq_some_iff, Prod.exists] at h
  obtain ⟨_, _, ⟨_, -, _, _, -, _, -, _, _, -, _, hnumbers, hpair⟩, hend⟩ := h
  cases hpair
  split at hend
  · cases hend
    unfold ofNumbers? at hnumbers
    split at hnumbers
    · cases hnumbers
      constructor
      · show (0 : Int) ≤ (Nat.ofDigitChars 10 y 0 : Nat)
        omega
      · show ((Nat.ofDigitChars 10 y 0 : Nat) : Int) ≤ 9999
        omega
    · cases hnumbers
  · cases hend

end Date

namespace Instant

/-! ## Instants -/

theorem fraction_fractionText {nano : Nat} (h : nano < billion) {cs : List Char}
    (hcs : ∀ c ∈ cs.head?, c.isDigit = false ∧ c ≠ '.') :
    Calendar.fraction ((fractionText nano).toList ++ cs) = some (nano, cs) := by
  have hdigit : ∀ c ∈ cs.head?, c.isDigit = false := fun c hc => (hcs c hc).1
  have hgroups (places : Nat) {width n : Nat} (hw : 0 < width ∧ width ≤ 9) (hn : n < 10 ^ width)
      (hplaces : 10 ^ (9 - width) = places) :
      Calendar.fraction (("." ++ Text.zeroPadded width n).toList ++ cs) = some (n * places, cs) := by
    have hcons : ("." ++ Text.zeroPadded width n).toList ++ cs =
        '.' :: ((Text.zeroPadded width n).toList ++ cs) := by simp
    rw [hcons, ← hplaces, Calendar.fraction_zeroPadded hdigit hw.1 hw.2 hn]
  unfold billion at h
  unfold fractionText
  split
  · rename_i h0
    rw [h0, String.toList_empty, List.nil_append]
    unfold Calendar.fraction
    split
    · exact absurd rfl (hcs '.' rfl).2
    · rfl
  split
  · rename_i hmod
    rw [hgroups 1000000 (by omega) (by omega) (by norm_num),
      Nat.div_mul_cancel (Nat.dvd_of_mod_eq_zero hmod)]
  split
  · rename_i hmod
    rw [hgroups 1000 (by omega) (by omega) (by norm_num),
      Nat.div_mul_cancel (Nat.dvd_of_mod_eq_zero hmod)]
  · rw [hgroups 1 (by omega) (by omega) (by norm_num), Nat.mul_one]

/-- The clock shows a leap second as second 60. -/
theorem clock_eq (t : Instant) : t.second / 3600 < 24 ∧ t.second / 60 % 60 < 60 ∧
    t.second % 60 + t.nano / billion ≤ 60 ∧
    t.second / 3600 * 3600 + t.second / 60 % 60 * 60 +
        (t.second % 60 + t.nano / billion - if t.second % 60 + t.nano / billion = 60 then 1 else 0) = t.second ∧
    t.nano % billion + (if t.second % 60 + t.nano / billion = 60 then 1 else 0) * billion = t.nano := by
  obtain ⟨hsecond, hnano, hleap⟩ := t.valid
  unfold billion at *
  refine ⟨by omega, by omega, by omega, ?_, ?_⟩ <;> split <;> omega

theorem ofZoned?_universal (t : Instant) : ofZoned? t.date t.second t.nano 0 = some t := by
  obtain ⟨hsecond, -⟩ := t.valid
  unfold ofZoned?
  rw [if_neg (by omega), if_neg (by omega)]
  simp [ofParts?, t.valid]

theorem head_fractionText {nano : Nat} {cs : List Char} (hcs : ∀ c ∈ cs.head?, c.isDigit = false) :
    ∀ c ∈ ((fractionText nano).toList ++ cs).head?, c.isDigit = false := by
  unfold fractionText
  split
  · simpa using hcs
  · split
    · simp
    · split <;> simp

/-- An instant that is written is read again as itself. -/
theorem ofText?_text (t : Instant) : ofText? t.text = some t := by
  obtain ⟨hhour, hminute, hsecond, hclock, hnano⟩ := t.clock_eq
  have htext : t.text.toList = t.date.text.toList ++ 'T' :: ((Text.zeroPadded 2 (t.second / 3600)).toList ++
      ':' :: ((Text.zeroPadded 2 (t.second / 60 % 60)).toList ++
        ':' :: ((Text.zeroPadded 2 (t.second % 60 + t.nano / billion)).toList ++
          ((fractionText (t.nano % billion)).toList ++ ['Z'])))) := by
    simp [text, clockText]
  have hmark (cs : List Char) : Calendar.mark ':' (':' :: cs) = some cs := Calendar.mark_cons (by decide)
  have hseparator (cs : List Char) : Calendar.separator ('T' :: cs) = some cs := rfl
  have hdigits (n : Nat) (hn : n < 100) (cs : List Char) :
      Calendar.twoDigits ((Text.zeroPadded 2 n).toList ++ ':' :: cs) = some (n, ':' :: cs) :=
    Calendar.twoDigits_zeroPadded (by simp) hn
  have hend : ∀ c ∈ ((fractionText (t.nano % billion)).toList ++ ['Z']).head?, c.isDigit = false :=
    head_fractionText (by simp)
  have hlast := Calendar.twoDigits_zeroPadded hend (show t.second % 60 + t.nano / billion < 100 by omega)
  have hfraction : Calendar.fraction ((fractionText (t.nano % billion)).toList ++ ['Z']) =
      some (t.nano % billion, ['Z']) := fraction_fractionText (Nat.mod_lt _ (by decide)) (by simp)
  have hzone : Calendar.zone (Text.trimStart ['Z']) = some (0, []) := by decide
  have hblank : (Text.trimStart []).isEmpty = true := rfl
  unfold ofText?
  rw [htext, Date.date_text _ (by simp)]
  simp only [Option.bind_eq_bind, Option.bind_some, hseparator, hmark, hdigits _ (show t.second / 3600 < 100 by omega),
    hdigits _ (show t.second / 60 % 60 < 100 by omega), hlast, hfraction, hzone, hblank, hhour, hminute, hsecond,
    and_self, if_true, hclock, hnano, ofZoned?_universal]

end Instant

end IssueQuery
