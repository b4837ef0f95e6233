/-
How the classes of characters lie to each other: letters and digits are word characters, and no
blank is one. So a text can be trimmed of its blanks without losing a word.
-/
import Mathlib
import IssueQuery.Text.Word

namespace IssueQuery.Text

/-! ## Ranges -/

/-- No range of the one list meets a range of the other. -/
def areApart (a b : List (Nat × Nat)) : Bool :=
  a.all fun (first, last) => b.all fun (first', last') => decide (last < first') || decide (last' < first)

theorem inRanges_eq_false {a b : List (Nat × Nat)} (h : areApart a b = true) {c : Char}
    (hc : inRanges a c = true) : inRanges b c = false := by
  by_contra hb
  rw [Bool.not_eq_false] at hb
  simp only [inRanges, List.any_eq_true, Bool.and_eq_true, decide_eq_true_eq] at hc hb
  obtain ⟨r, hr, hc1, hc2⟩ := hc
  obtain ⟨r', hr', hb1, hb2⟩ := hb
  simp only [areApart, List.all_eq_true, Bool.or_eq_true, decide_eq_true_eq] at h
  rcases h r hr r' hr' with h | h <;> omega

/-! ## Blanks and word characters -/

theorem isAsciiWord_lt {c : Char} (h : isAsciiWord c = true) : 48 ≤ c.toNat ∧ c.toNat < 128 := by
  simp only [isAsciiWord, Char.isAlphanum, Char.isAlpha, Char.isUpper, Char.isLower, Char.isDigit,
    Bool.or_eq_true, Bool.and_eq_true, decide_eq_true_eq, beq_iff_eq, UInt32.le_iff_toNat_le] at h
  rcases h with (((h | h) | h) | rfl)
  · exact ⟨le_trans (by decide) h.1, lt_of_le_of_lt h.2 (by decide)⟩
  · exact ⟨le_trans (by decide) h.1, lt_of_le_of_lt h.2 (by decide)⟩
  · exact ⟨h.1, lt_of_le_of_lt h.2 (by decide)⟩
  · decide

theorem isWord_of_isAlphanum {c : Char} (h : c.isAlphanum = true) : isWord c = true := by
  simp [isWord, isAsciiWord, h]

theorem isAlphanum_of_isAlpha {c : Char} (h : c.isAlpha = true) : c.isAlphanum = true := by
  simp [Char.isAlphanum, h]

theorem isAlphanum_of_isDigit {c : Char} (h : c.isDigit = true) : c.isAlphanum = true := by
  simp [Char.isAlphanum, h]

theorem isDigit_eq_false_of_isAlpha {c : Char} (h : c.isAlpha = true) : c.isDigit = false := by
  by_contra hd
  simp only [Bool.not_eq_false, Char.isDigit, Char.isAlpha, Char.isUpper, Char.isLower, Bool.or_eq_true,
    Bool.and_eq_true, decide_eq_true_eq, UInt32.le_iff_toNat_le] at h hd
  have : c.val.toNat ≤ 57 := hd.2
  rcases h with h | h
  · have : 65 ≤ c.val.toNat := h.1
    omega
  · have : 97 ≤ c.val.toNat := h.1
    omega

theorem isWord_eq_false_of_isBlank {c : Char} (h : isBlank c = true) : isWord c = false := by
  have hr : inRanges wordRanges c = false := by
    unfold isBlank at h
    exact inRanges_eq_false (by decide +kernel) h
  have ha : isAsciiWord c = false := by
    by_contra ha
    have := isAsciiWord_lt (by simpa using ha)
    simp only [isBlank, inRanges, List.any_eq_true, Bool.and_eq_true, decide_eq_true_eq] at h
    obtain ⟨r, hr, h1, h2⟩ := h
    simp only [List.mem_cons, List.not_mem_nil, or_false] at hr
    rcases hr with rfl | rfl | rfl | rfl | rfl | rfl | rfl | rfl | rfl | rfl <;> simp only at h1 h2 <;> omega
  simp [isWord, ha, hr]

theorem isBlank_eq_false_of_isAlphanum {c : Char} (h : c.isAlphanum = true) : isBlank c = false := by
  by_contra hb
  have := isWord_eq_false_of_isBlank (by simpa using hb)
  rw [isWord_of_isAlphanum h] at this
  cases this

/-! ## Trimming -/

theorem trimStart_cons {c : Char} {cs : List Char} (hc : isBlank c = false) : trimStart (c :: cs) = c :: cs := by
  rw [trimStart, List.dropWhile_cons_of_neg (by simp [hc])]

/-- What is dropped from the end of a text is all that stands there, if nothing before is of the kind. -/
theorem reverse_dropWhile_append {p : Char → Bool} {w tail : List Char} (hw : ∀ c ∈ w, p c = false)
    (ht : ∀ c ∈ tail, p c = true) : ((w ++ tail).reverse.dropWhile p).reverse = w := by
  rw [List.reverse_append, List.dropWhile_append_of_pos (by simpa using ht)]
  cases hr : w.reverse with
  | nil => rw [List.reverse_eq_nil_iff.1 hr]; rfl
  | cons c cs =>
    have hc := hw c (by rw [← List.mem_reverse, hr]; exact List.mem_cons_self ..)
    rw [List.dropWhile_cons_of_neg (by simp [hc]), ← hr, List.reverse_reverse]

theorem trimEnd_append {w blanks : List Char} (hw : ∀ c ∈ w, isBlank c = false)
    (hb : ∀ b ∈ blanks, isBlank b = true) : trimEnd (w ++ blanks) = w :=
  reverse_dropWhile_append hw hb

end IssueQuery.Text
