/-
The folding of ASCII letters against lower case. Texts that are equal ignoring the case of ASCII letters have
one lower case; and a text is equal to its lower case in that way, exactly if all of its characters beyond
ASCII are in lower case already.
-/
import IssueQuery.Proofs.Text.Classes
import IssueQuery.Proofs.Text.Sigma

namespace IssueQuery.Text

/-! ## ASCII letters -/

theorem toNat_of_isUpper {c : Char} (h : c.isUpper = true) : 65 ≤ c.toNat ∧ c.toNat < 91 := by
  simp only [Char.isUpper, decide_eq_true_eq, UInt32.le_iff_toNat_le] at h
  exact ⟨h.1, Nat.lt_succ_of_le h.2⟩

theorem toLower_eq_self {c : Char} (h : 128 ≤ c.toNat) : c.toLower = c :=
  Char.toLower_eq_of_not_isUpper fun hupper => absurd (toNat_of_isUpper hupper) (by omega)

/-- What is the same for the ASCII letters of either case is the same for all characters when folded. -/
theorem apply_toLower {α : Type} {f : Char → α}
    (h : ∀ n < 26, f (Char.ofNat (65 + n)).toLower = f (Char.ofNat (65 + n))) (c : Char) : f c.toLower = f c := by
  by_cases hupper : c.isUpper = true
  · have hc := toNat_of_isUpper hupper
    have hletter := h (c.toNat - 65) (by omega)
    rwa [Nat.add_sub_cancel' hc.1, Char.ofNat_toNat] at hletter
  · rw [Char.toLower_eq_of_not_isUpper hupper]

theorem toNat_toLower_lt {c : Char} (h : c.toNat < 128) : c.toLower.toNat < 128 := by
  have := apply_toLower (f := fun c => decide (c.toNat < 128)) (by decide) c
  simpa [h] using this

theorem isCased_toLower (c : Char) : isCased c.toLower = isCased c := apply_toLower (by decide) c

theorem isCaseIgnorable_toLower (c : Char) : isCaseIgnorable c.toLower = isCaseIgnorable c := by
  -- no letter of either case is ignorable
  have hapart : areApart [(65, 90), (97, 122)] ignorableRanges = true := by decide +kernel
  have hletters : ∀ n < 26, inRanges [(65, 90), (97, 122)] (Char.ofNat (65 + n)).toLower = true ∧
      inRanges [(65, 90), (97, 122)] (Char.ofNat (65 + n)) = true := by decide
  refine apply_toLower (fun n hn => ?_) c
  obtain ⟨hlower, hupper⟩ := hletters n hn
  rw [isCaseIgnorable, inRanges_eq_false hapart hlower, isCaseIgnorable, inRanges_eq_false hapart hupper]

theorem beq_sigma_toLower (c : Char) : (c.toLower == 'Σ') = (c == 'Σ') :=
  apply_toLower (f := (· == 'Σ')) (by decide) c

theorem lowerChar_toLower (c : Char) : lowerChar c.toLower = lowerChar c := apply_toLower (by decide) c

/-! ## Folded texts -/

theorem startsCased_map_toLower (cs : List Char) : startsCased (cs.map Char.toLower) = startsCased cs := by
  have hignorable : isCaseIgnorable ∘ Char.toLower = isCaseIgnorable := funext isCaseIgnorable_toLower
  rw [startsCased, List.dropWhile_map, hignorable, List.head?_map, Option.any_map]
  simp only [isCased_toLower]
  rfl

/-- Folding the ASCII letters of a text first makes no difference to its lower case. -/
theorem lowerFrom_map_toLower (afterCased : Bool) (cs : List Char) :
    lowerFrom afterCased (cs.map Char.toLower) = lowerFrom afterCased cs := by
  induction cs generalizing afterCased with
  | nil => rfl
  | cons c cs ih =>
    rw [List.map_cons, lowerFrom, lowerFrom, beq_sigma_toLower, startsCased_map_toLower, lowerChar_toLower,
      isCaseIgnorable_toLower, isCased_toLower, ih]

theorem lower_eq_of_sameAsciiFolded {a b : String} (h : sameAsciiFolded a b = true) : lower a = lower b := by
  rw [sameAsciiFolded, beq_iff_eq] at h
  rw [lower, lower, ← lowerFrom_map_toLower, h, lowerFrom_map_toLower]

/-! ## Texts in lower case beyond ASCII -/

/-- All characters of the text beyond ASCII are their own images in lower case. -/
def IsLowerBeyondAscii (s : String) : Prop := ∀ c ∈ s.toList, 128 ≤ c.toNat → lowerChar c = [c]

theorem isLowerBeyondAscii_iff {s : String} :
    (s.toList.all fun c => c.toNat < 128 || lowerChar c == [c]) = true ↔ IsLowerBeyondAscii s := by
  simp [IsLowerBeyondAscii, or_iff_not_imp_left]

instance (s : String) : Decidable (IsLowerBeyondAscii s) := decidable_of_iff _ isLowerBeyondAscii_iff

variable {before after cs : List Char} {c : Char}

theorem imageBetween_ne_nil (before after : List Char) (c : Char) : imageBetween before after c ≠ [] := by
  unfold imageBetween lowerChar
  repeat' split
  all_goals exact List.cons_ne_nil _ _

theorem length_le_lowerBetween (before after cs : List Char) : cs.length ≤ (lowerBetween before after cs).length := by
  induction cs generalizing before with
  | nil => exact Nat.le_refl 0
  | cons c cs ih =>
    have himage := List.length_pos_of_ne_nil (imageBetween_ne_nil before (cs ++ after) c)
    have hrest := ih (before ++ [c])
    rw [lowerBetween, List.length_append, List.length_cons]
    omega

theorem lowerChar_sigma : lowerChar 'Σ' = ['σ'] := by decide

/-- Up to the case of ASCII letters a character is its own image only if it is ASCII or in lower case. -/
theorem map_toLower_imageBetween_iff (before after : List Char) (c : Char) :
    (imageBetween before after c).map Char.toLower = [c.toLower] ↔ (128 ≤ c.toNat → lowerChar c = [c]) := by
  by_cases hsigma : c = 'Σ'
  · rw [hsigma, lowerChar_sigma, imageBetween, if_pos (by decide)]
    split <;> decide
  · rw [imageBetween, if_neg (by simpa using hsigma)]
    by_cases h : c.toNat < 128
    · rw [lowerChar, if_pos h, List.map_singleton, Char.toLower_toLower_eq_toLower]
      exact iff_of_true rfl fun h' => absurd h' (by omega)
    · have hc : 128 ≤ c.toNat := by omega
      rw [toLower_eq_self hc]
      constructor
      · intro himage _
        obtain ⟨d, hd, hdc⟩ := List.map_eq_singleton_iff.1 himage
        have hdbeyond : 128 ≤ d.toNat := by
          by_contra hlt
          have := toNat_toLower_lt (c := d) (by omega)
          rw [hdc] at this
          omega
        rw [hd, ← hdc, toLower_eq_self hdbeyond]
      · intro himage
        rw [himage hc, List.map_singleton, toLower_eq_self hc]

theorem map_toLower_lowerBetween_iff : (lowerBetween before after cs).map Char.toLower = cs.map Char.toLower ↔
    ∀ c ∈ cs, 128 ≤ c.toNat → lowerChar c = [c] := by
  induction cs generalizing before with
  | nil => simp [lowerBetween]
  | cons c cs ih =>
    rw [lowerBetween, List.map_append, List.map_cons, List.forall_mem_cons, ← @ih (before ++ [c]),
      ← map_toLower_imageBetween_iff before (cs ++ after) c]
    constructor
    · intro h
      -- no image is empty, so that none can be longer than its character
      have happend : _ = [c.toLower] ++ cs.map Char.toLower := h
      have hlength := congrArg List.length h
      simp only [List.length_append, List.length_map, List.length_cons] at hlength
      have himage := List.length_pos_of_ne_nil (imageBetween_ne_nil before (cs ++ after) c)
      have hrest := length_le_lowerBetween (before ++ [c]) after cs
      exact List.append_inj happend (by rw [List.length_map, List.length_singleton]; omega)
    · rintro ⟨himage, hrest⟩
      rw [himage, hrest]
      rfl

/-- A text is its own lower case up to the case of ASCII letters, exactly if the others are in lower case. -/
theorem sameAsciiFolded_lower_iff {s : String} : sameAsciiFolded (lower s) s = true ↔ IsLowerBeyondAscii s := by
  rw [sameAsciiFolded, beq_iff_eq, toList_lower_eq]
  exact map_toLower_lowerBetween_iff

/-! ## Marks -/

theorem ascii_toLower_mark : ∀ n < 128, (Char.ofNat n).toLower.toNat < 65 → (Char.ofNat n).toLower = Char.ofNat n := by
  decide

theorem lt_image_of_mem_caseRuns : ∀ r ∈ caseRuns, 65 ≤ r.image := by decide +kernel

/-- A character in front of the ASCII letters is in the image of no other. -/
theorem eq_of_mem_lowerChar {d : Char} (hpos : 0 < d.toNat) (hd : d.toNat < 65) (hmem : d ∈ lowerChar c) : d = c := by
  unfold lowerChar at hmem
  split at hmem
  · rename_i hc
    obtain rfl := List.mem_singleton.1 hmem
    have := ascii_toLower_mark c.toNat hc
    rw [Char.ofNat_toNat] at this
    exact this hd
  · split at hmem
    · rcases List.mem_pair.1 hmem with rfl | rfl
      · exact absurd hd (by decide)
      · exact absurd hd (by decide)
    · obtain rfl := List.mem_singleton.1 hmem
      cases himage : caseRuns.findSome? (·.imageOf? c.toNat) with
      | none => rfl
      | some n =>
        obtain ⟨r, hr, hn⟩ := List.exists_of_findSome?_eq_some himage
        have hrun := lt_image_of_mem_caseRuns r hr
        rw [CaseRun.imageOf?] at hn
        split at hn
        · cases hn
          rw [himage, Option.map_some, Option.getD_some] at hpos hd
          rw [Char.toNat_ofNat] at hpos hd
          split_ifs at hpos hd <;> omega
        · cases hn

theorem mem_of_mem_lowerBetween {d : Char} (hpos : 0 < d.toNat) (hd : d.toNat < 65)
    (hmem : d ∈ lowerBetween before after cs) : d ∈ cs := by
  induction cs generalizing before with
  | nil => cases hmem
  | cons c cs ih =>
    rw [lowerBetween, List.mem_append] at hmem
    rcases hmem with hmem | hmem
    · unfold imageBetween at hmem
      split at hmem
      · split at hmem <;> obtain rfl := List.mem_singleton.1 hmem <;> exact absurd hd (by decide)
      · exact List.mem_cons.2 (.inl (eq_of_mem_lowerChar hpos hd hmem))
    · exact List.mem_cons_of_mem _ (ih hmem)

end IssueQuery.Text
