/-
Labels and their groups. A label that is added stays until an exclusive one of its group displaces it;
and a label has its own full name in its parts, if it is ASCII, so that it is found by it.
-/
import IssueQuery.Filter.Match
import IssueQuery.Proofs.Text.Lower

namespace IssueQuery

open Text (occursFolded)

/-! ## Groups in lower case -/

namespace GroupedName

theorem isDelimiter_eq_false_of_isAlpha {c : Char} (h : c.isAlpha = true) : isDelimiter c = false := by
  rw [isDelimiter, Bool.or_eq_false_iff, beq_eq_false_iff_ne, beq_eq_false_iff_ne]
  constructor <;> rintro rfl <;> exact absurd h (by decide)

theorem isDelimiter_toLower (c : Char) : isDelimiter c.toLower = isDelimiter c := by
  by_cases h : c.isUpper = true
  · have hc : c.isAlpha = true := by simp [Char.isAlpha, h]
    have hlower : c.toLower.isAlpha = true := by rwa [Char.isAlpha_toLower_eq_isAlpha]
    rw [isDelimiter_eq_false_of_isAlpha hc, isDelimiter_eq_false_of_isAlpha hlower]
  · rw [Char.toLower_eq_of_not_isUpper h]

theorem toLower_eq_self_of_isDelimiter {c : Char} (h : isDelimiter c = true) : c.toLower = c := by
  rw [isDelimiter, Bool.or_eq_true, beq_iff_eq, beq_iff_eq] at h
  rcases h with rfl | rfl <;> rfl

/-- The parts in lower case. -/
def lower (g : GroupedName) : GroupedName := ⟨Text.lower g.group, Text.lower g.name, g.delimiter⟩

/-- Lower case does not move the delimiter. -/
theorem ofText?_lower {s : String} (h : Text.IsAscii s) : ofText? (Text.lower s) = (ofText? s).map lower := by
  have hcomp : (fun c => !isDelimiter c) ∘ Char.toLower = fun c => !isDelimiter c := by
    funext c
    rw [Function.comp_apply, isDelimiter_toLower]
  have hgroup : ∀ c ∈ s.toList.takeWhile (!isDelimiter ·), c.toNat < 128 := fun c hc =>
    h c ((List.takeWhile_prefix _).subset hc)
  have hrest : ∀ c ∈ s.toList.dropWhile (!isDelimiter ·), c.toNat < 128 := fun c hc =>
    h c ((List.dropWhile_suffix _).subset hc)
  have hhead := List.head?_dropWhile_not (!isDelimiter ·) s.toList
  unfold ofText?
  rw [Text.toList_lower h, List.takeWhile_map, List.dropWhile_map, hcomp]
  revert hgroup hrest hhead
  generalize s.toList.takeWhile (!isDelimiter ·) = group
  generalize s.toList.dropWhile (!isDelimiter ·) = rest
  intro hgroup hrest hhead
  match group, rest with
  | [], _ => rfl
  | _ :: _, [] => rfl
  | c :: group, delimiter :: name =>
    have hdelimiter : delimiter.toLower = delimiter :=
      toLower_eq_self_of_isDelimiter (by simpa using hhead)
    have hname : ∀ c ∈ name, c.toNat < 128 := fun c hc => hrest c (List.mem_cons_of_mem _ hc)
    simp only [Option.map_some, lower, Text.lower_ofList hgroup, Text.lower_ofList hname, List.map_cons, hdelimiter]

end GroupedName

namespace Label

/-! ## Searching labels -/

/-- The label has the text, which is in lower case, in its parts: if the text has a group, that is in
the group of the label and the rest in its name. -/
def Fits (l : Label) (needle : String) : Prop :=
  match GroupedName.ofText? needle with
  | some wanted => ∃ g, l.grouped? = some g ∧ occursFolded wanted.group g.group = true ∧
      occursFolded wanted.name g.name = true
  | none => occursFolded needle l.name = true

theorem fits_iff {l : Label} {needle : String} : l.Fits needle ↔
    (match GroupedName.ofText? needle with
      | some wanted => l.group?.any (occursFolded wanted.group) && occursFolded wanted.name l.name
      | none => occursFolded needle l.name) = true := by
  unfold Fits group? name
  split
  · cases l.grouped? <;> simp
  · exact Iff.rfl

instance (l : Label) (needle : String) : Decidable (l.Fits needle) := decidable_of_iff _ fits_iff.symm

theorem fitsLabel_iff {c : Qualifier.Content} {labels : List Label} :
    c.fitsLabel labels = true ↔ ∃ needle, c.needle? = some needle ∧ ∃ l ∈ labels, l.Fits needle := by
  unfold Qualifier.Content.fitsLabel
  rw [Option.any_eq_true]
  simp only [fits_iff]
  refine exists_congr fun needle => and_congr_right fun _ => ?_
  cases GroupedName.ofText? needle with
  | none => exact List.any_eq_true
  | some wanted => exact List.any_eq_true

/-- A label fits its own full name. -/
theorem fits_of_lower_eq {l : Label} {s : String} (hl : Text.IsAscii l.fullName)
    (h : Text.lower s = Text.lower l.fullName) : l.Fits (Text.lower s) := by
  unfold Fits
  rw [h, GroupedName.ofText?_lower hl]
  change match l.grouped?.map GroupedName.lower with
    | some wanted => ∃ g, l.grouped? = some g ∧ occursFolded wanted.group g.group = true ∧
        occursFolded wanted.name g.name = true
    | none => occursFolded (Text.lower l.fullName) l.name = true
  cases hg : l.grouped? with
  | none =>
    have hname : l.name = l.fullName := by rw [name, hg]; rfl
    rw [hname]
    exact Text.occursFolded_lower _
  | some g => exact ⟨g, rfl, Text.occursFolded_lower _, Text.occursFolded_lower _⟩

/-! ## Adding labels -/

/-- An issue that gets the label loses the other: the two are in one group, and the first may only be
there alone. -/
def Displaces (l other : Label) : Prop :=
  l.isExclusive = true ∧ l ≠ other ∧ Issue.foldedGroup? other = Issue.foldedGroup? l

instance (l other : Label) : Decidable (l.Displaces other) := inferInstanceAs (Decidable (_ ∧ _ ∧ _))

/-- An exclusive label has a group, so it displaces none that is in no group. -/
theorem not_displaces_of_group?_eq_none {l other : Label} (h : other.group? = none) : ¬ l.Displaces other := by
  rintro ⟨hexclusive, -, hgroup⟩
  rw [isExclusive, Option.any_eq_true] at hexclusive
  obtain ⟨g, hg, -⟩ := hexclusive
  rw [Issue.foldedGroup?, h, Issue.foldedGroup?, group?, hg] at hgroup
  cases hgroup

end Label

namespace Issue

theorem addLabel_of_mem {label : Label} {labels : List Label} (h : label ∈ labels) : addLabel label labels = labels :=
  if_pos (List.contains_iff_mem.2 h)

/-- A new label comes last, and the others stay but for those that it displaces. -/
theorem addLabel_of_notMem {label : Label} {labels : List Label} (h : label ∉ labels) :
    addLabel label labels = labels.filter (fun l => ¬ label.Displaces l) ++ [label] := by
  unfold addLabel
  rw [if_neg (by simpa using h)]
  split
  · rename_i hexclusive
    congr 1
    refine List.filter_congr fun l hl => ?_
    have hne : label ≠ l := by
      rintro rfl
      exact h hl
    rw [Bool.eq_iff_iff, bne_iff_ne, decide_eq_true_eq, Label.Displaces]
    simp [hexclusive, hne]
  · rename_i hexclusive
    congr 1
    exact (List.filter_eq_self.2 fun l _ => by simp [Label.Displaces, hexclusive]).symm

/-- A label that is not exclusive displaces nothing. -/
theorem addLabel_of_isExclusive_eq_false {label : Label} {labels : List Label} (h : label.isExclusive = false) :
    addLabel label labels = if label ∈ labels then labels else labels ++ [label] := by
  unfold addLabel
  simp [h]

theorem mem_addLabel_iff {l label : Label} {labels : List Label} : l ∈ addLabel label labels ↔
    l = label ∨ l ∈ labels ∧ (label ∈ labels ∨ ¬ label.Displaces l) := by
  by_cases hmem : label ∈ labels
  · rw [addLabel_of_mem hmem]
    constructor
    · exact fun hl => .inr ⟨hl, .inl hmem⟩
    · rintro (rfl | ⟨hl, -⟩)
      · exact hmem
      · exact hl
  · simp [addLabel_of_notMem hmem, hmem, or_comm]

/-- The labels with others added one after the other. -/
def addLabels (added labels : List Label) : List Label := added.foldl (fun labels l => addLabel l labels) labels

end Issue

end IssueQuery
