/-
Lines of a text. Put together again with line feeds between them they are the text, if it has no carriage
return and does not end with a line feed.
-/
import Mathlib
import IssueQuery.Text.Lines

namespace IssueQuery.Text

theorem splitLines_eq (cs : List Char) : splitLines cs = cs.splitOn '\n' := by
  induction cs with
  | nil => rfl
  | cons c cs ih =>
    rw [List.splitOn, List.splitOnP_cons_eq_if_modifyHead, ← List.splitOn, ← ih]
    by_cases hc : c = '\n'
    · rw [hc]
      rfl
    · rw [if_neg (by simpa using hc), splitLines.eq_3 _ _ (by simpa using hc)]
      cases hsplit : splitLines cs with
      | nil => exact absurd (ih.symm.trans hsplit) (List.splitOn_ne_nil _ _)
      | cons => rfl

theorem withoutReturn_eq {line : List Char} (h : '\r' ∉ line) : withoutReturn line = line := by
  unfold withoutReturn
  split
  · rename_i rest hrest
    exact absurd (List.mem_reverse.1 (hrest ▸ List.mem_cons_self ..)) h
  · rfl

section Intercalate

variable {separator : List Char} {ps : List (List Char)}

theorem mem_intercalate {p : List Char} {c : Char} (hp : p ∈ ps) (hc : c ∈ p) : c ∈ separator.intercalate ps := by
  induction ps with
  | nil => cases hp
  | cons q ps ih =>
    cases ps with
    | nil => simpa [List.mem_singleton.1 hp] using hc
    | cons r ps =>
      rw [List.intercalate_cons_cons, List.append_assoc]
      rcases List.mem_cons.1 hp with rfl | hp
      · exact List.mem_append_left _ hc
      · exact List.mem_append_right _ (List.mem_append_right _ (ih hp))

theorem intercalate_concat (hps : ps ≠ []) (last : List Char) :
    separator.intercalate (ps ++ [last]) = separator.intercalate ps ++ separator ++ last := by
  induction ps with
  | nil => exact absurd rfl hps
  | cons p ps ih =>
    cases ps with
    | nil => simp [List.intercalate_cons_cons]
    | cons q ps =>
      have hrest := ih (List.cons_ne_nil q ps)
      simp only [List.cons_append, List.intercalate_cons_cons, List.append_assoc] at hrest ⊢
      rw [hrest]

end Intercalate

theorem lines_of_splitLines {cs last : List Char} {ended : List (List Char)} (h : splitLines cs = ended ++ [last]) :
    lines cs = ended.map withoutReturn ++ if last.isEmpty then [] else [last] := by
  rw [lines, h, List.reverse_concat]
  simp

/-- A text that does not end with a line feed is its lines with line feeds between them. -/
theorem intercalate_lines {cs : List Char} (hreturn : '\r' ∉ cs) (hend : cs.getLast? ≠ some '\n') :
    ['\n'].intercalate (lines cs) = cs := by
  have hwhole : ['\n'].intercalate (splitLines cs) = cs := by rw [splitLines_eq, List.intercalate_splitOn]
  obtain ⟨ended, last, hsplit⟩ : ∃ ended last, splitLines cs = ended ++ [last] := by
    have hne : splitLines cs ≠ [] := by
      rw [splitLines_eq]
      exact List.splitOn_ne_nil '\n' cs
    exact ⟨_, _, (List.dropLast_append_getLast hne).symm⟩
  have hended : ended.map withoutReturn = ended := by
    refine (List.map_congr_left fun line hline => withoutReturn_eq fun hr => hreturn ?_).trans (List.map_id ended)
    rw [← hwhole]
    exact mem_intercalate (hsplit ▸ List.mem_append_left _ hline) hr
  rw [lines_of_splitLines hsplit, hended]
  rw [hsplit] at hwhole
  cases last with
  | cons c last => exact hwhole
  | nil =>
    -- what is left behind the last line feed is empty, so there is no line feed
    have hnone : ended = [] := by
      by_contra hne
      rw [intercalate_concat hne, List.append_nil] at hwhole
      exact hend (hwhole ▸ List.getLast?_concat)
    subst hnone
    exact hwhole

end IssueQuery.Text
