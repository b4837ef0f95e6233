/-
Lower case of ASCII texts, where it goes character by character and so agrees with the folding of
ASCII letters.
-/
import Mathlib
import IssueQuery.Text.Search

namespace IssueQuery.Text

/-- All characters of the text are ASCII. -/
def IsAscii (s : String) : Prop := ∀ c ∈ s.toList, c.toNat < 128

theorem isAscii_iff {s : String} : (s.toList.all fun c => c.toNat < 128) = true ↔ IsAscii s := by simp [IsAscii]

instance (s : String) : Decidable (IsAscii s) := decidable_of_iff _ isAscii_iff

theorem lowerFrom_ascii {cs : List Char} (h : ∀ c ∈ cs, c.toNat < 128) (afterCased : Bool) :
    lowerFrom afterCased cs = cs.map Char.toLower := by
  induction cs generalizing afterCased with
  | nil => rfl
  | cons c cs ih =>
    have hc := h c (List.mem_cons_self ..)
    have hsigma : (c == 'Σ') = false := by
      refine beq_eq_false_iff_ne.2 ?_
      rintro rfl
      exact absurd hc (by decide)
    rw [lowerFrom, ih fun d hd => h d (List.mem_cons_of_mem _ hd), hsigma, lowerChar, if_pos hc]
    rfl

theorem toList_lower {s : String} (h : IsAscii s) : (lower s).toList = s.toList.map Char.toLower := by
  rw [lower, String.toList_ofList, lowerFrom_ascii h]

theorem lower_ofList {cs : List Char} (h : ∀ c ∈ cs, c.toNat < 128) :
    lower (String.ofList cs) = String.ofList (cs.map Char.toLower) := by
  rw [lower, String.toList_ofList, lowerFrom_ascii h]

theorem sameAsciiFolded_iff {a b : String} (ha : IsAscii a) (hb : IsAscii b) :
    sameAsciiFolded a b = true ↔ lower a = lower b := by
  rw [← String.toList_inj, toList_lower ha, toList_lower hb, sameAsciiFolded, beq_iff_eq]

/-! ## Occurrence -/

/-- A text occurs in itself. -/
theorem occursFolded_lower (s : String) : occursFolded (lower s) s = true := occurs_iff.2 List.infix_rfl

/-- Texts with the same lower case occur in each other. -/
theorem occursFolded_of_lower_eq {s t : String} (h : lower s = lower t) : occursFolded (lower s) t = true := by
  rw [h]
  exact occursFolded_lower t

end IssueQuery.Text
