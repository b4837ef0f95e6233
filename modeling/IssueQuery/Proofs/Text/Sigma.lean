/-
Lower case of a text that stands in another one. All characters keep their images there but the capital
sigma, whose image depends on whether it ends a word. So the lower case of a text occurs wherever the text
does, exactly if no capital sigma of it is moved into or out of the end of a word by what stands around the
text.
-/
import IssueQuery.Proofs.Text.Lower

namespace IssueQuery.Text

/-! ## Ends of words -/

/-- Whether a cased character came last, case-ignorable ones passed over. `afterCased` tells it of what
stands before the characters. -/
def casedAfter (afterCased : Bool) (cs : List Char) : Bool :=
  cs.foldl (fun cased c => if isCaseIgnorable c then cased else isCased c) afterCased

/-- Whether a capital sigma between the two ends a word. -/
def endsWord (before after : List Char) : Bool := casedAfter false before && !startsCased after

variable {before before' after after' u v : List Char}

theorem casedAfter_cons (afterCased : Bool) (c : Char) (cs : List Char) : casedAfter afterCased (c :: cs) =
    casedAfter (if isCaseIgnorable c then afterCased else isCased c) cs := rfl

theorem casedAfter_append (afterCased : Bool) (u v : List Char) :
    casedAfter afterCased (u ++ v) = casedAfter (casedAfter afterCased u) v := List.foldl_append

theorem isCased_sigma : isCased 'Σ' = true := by decide

theorem isCaseIgnorable_sigma : isCaseIgnorable 'Σ' = false := by decide +kernel

theorem sigma_notMem {cs : List Char} (h : ∀ c ∈ cs, isCaseIgnorable c = true) : 'Σ' ∉ cs := by
  intro hmem
  have hignorable := h _ hmem
  rw [isCaseIgnorable_sigma] at hignorable
  cases hignorable

theorem casedAfter_sigma (afterCased : Bool) (u v : List Char) :
    casedAfter afterCased (u ++ 'Σ' :: v) = casedAfter true v := by
  rw [casedAfter_append, casedAfter_cons, isCaseIgnorable_sigma, isCased_sigma]
  rfl

/-- What stands before the characters only matters if all of them are passed over. -/
theorem casedAfter_cases (cs : List Char) : (∀ c ∈ cs, isCaseIgnorable c = true) ∧ (∀ s, casedAfter s cs = s) ∨
    ∀ s, casedAfter s cs = casedAfter false cs := by
  induction cs with
  | nil => exact .inl ⟨nofun, fun _ => rfl⟩
  | cons c cs ih =>
    by_cases hc : isCaseIgnorable c = true
    · have hskip (s : Bool) : casedAfter s (c :: cs) = casedAfter s cs := by rw [casedAfter_cons, if_pos hc]
      simpa [hskip, hc] using ih
    · refine .inr fun s => ?_
      rw [casedAfter_cons, casedAfter_cons, if_neg hc, if_neg hc]

/-- A letter in front is as if a cased character had come before. -/
theorem casedAfter_letter (cs : List Char) : casedAfter false ('a' :: cs) = casedAfter true cs := by
  have hignorable : isCaseIgnorable 'a' = false := by decide +kernel
  have hcased : isCased 'a' = true := by decide
  rw [casedAfter_cons, hignorable, hcased]
  rfl

theorem startsCased_letter : startsCased ['a'] = true := by decide +kernel

theorem startsCased_append (u v : List Char) :
    startsCased (u ++ v) = if u.all isCaseIgnorable then startsCased v else startsCased u := by
  unfold startsCased
  rw [List.dropWhile_append]
  by_cases h : u.all isCaseIgnorable = true
  · have hnil : u.dropWhile isCaseIgnorable = [] := by simpa using h
    simp [h, hnil]
  · have hcons : u.dropWhile isCaseIgnorable ≠ [] := by simpa using h
    obtain ⟨c, cs, hcs⟩ := List.exists_cons_of_ne_nil hcons
    simp [h, hcs]

theorem startsCased_sigma (u v w : List Char) : startsCased (u ++ 'Σ' :: v) = startsCased (u ++ 'Σ' :: w) := by
  have hsigma (v : List Char) : startsCased ('Σ' :: v) = true := by
    rw [startsCased, List.dropWhile_cons_of_neg (by simp [isCaseIgnorable_sigma])]
    exact isCased_sigma
  rw [startsCased_append, startsCased_append, hsigma, hsigma]

/-! ## Lower case between other characters -/

/-- The image of a character between others. -/
def imageBetween (before after : List Char) (c : Char) : List Char :=
  if c == 'Σ' then (if endsWord before after then ['ς'] else ['σ']) else lowerChar c

/-- The lower case that characters have between others. -/
def lowerBetween (before after : List Char) : List Char → List Char
  | [] => []
  | c :: cs => imageBetween before (cs ++ after) c ++ lowerBetween (before ++ [c]) after cs

theorem lowerFrom_eq (before cs : List Char) : lowerFrom (casedAfter false before) cs = lowerBetween before [] cs := by
  induction cs generalizing before with
  | nil => rfl
  | cons c cs ih =>
    have hread : casedAfter false (before ++ [c]) =
        if isCaseIgnorable c then casedAfter false before else isCased c := casedAfter_append ..
    rw [lowerFrom, lowerBetween, ← ih, hread, List.append_nil]
    rfl

theorem toList_lower_eq (s : String) : (lower s).toList = lowerBetween [] [] s.toList := by
  rw [lower, String.toList_ofList]
  exact lowerFrom_eq [] s.toList

theorem lowerBetween_append (before after u v : List Char) : lowerBetween before after (u ++ v) =
    lowerBetween before (v ++ after) u ++ lowerBetween (before ++ u) after v := by
  induction u generalizing before with
  | nil => simp [lowerBetween]
  | cons c u ih => simp [lowerBetween, ih]

/-- The lower case of characters changes only with the ends of words at their capital sigmas. -/
theorem lowerBetween_congr {cs : List Char} (h : ∀ u v, cs = u ++ 'Σ' :: v →
    endsWord (before ++ u) (v ++ after) = endsWord (before' ++ u) (v ++ after')) :
    lowerBetween before after cs = lowerBetween before' after' cs := by
  induction cs generalizing before before' with
  | nil => rfl
  | cons c cs ih =>
    have himage : imageBetween before (cs ++ after) c = imageBetween before' (cs ++ after') c := by
      unfold imageBetween
      by_cases hc : c = 'Σ'
      · have := h [] cs (by rw [hc, List.nil_append])
        rw [List.append_nil, List.append_nil] at this
        rw [this]
      · simp [hc]
    rw [lowerBetween, lowerBetween, himage, ih]
    intro u v hcs
    simpa using h (c :: u) v (by rw [hcs, List.cons_append])

theorem lowerBetween_of_notMem {cs : List Char} (h : 'Σ' ∉ cs) :
    lowerBetween before after cs = lowerBetween before' after' cs :=
  lowerBetween_congr fun u v hcs => absurd (by simp [hcs]) h

theorem lowerBetween_sigma (before after u v : List Char) : lowerBetween before after (u ++ 'Σ' :: v) =
    lowerBetween before ('Σ' :: v ++ after) u ++
      (if endsWord (before ++ u) (v ++ after) then 'ς' else 'σ') :: lowerBetween (before ++ (u ++ ['Σ'])) after v := by
  rw [lowerBetween_append, lowerBetween, imageBetween, if_pos (by decide), List.append_assoc]
  split <;> rfl

/-! ## Settled sigmas -/

/-- None of the capital sigmas would come to end a word, or cease to, if there were a letter before the
characters or behind them. -/
def HasSettledSigmas (cs : List Char) : Prop := ∀ u v, cs = u ++ 'Σ' :: v →
  endsWord ('a' :: u) v = endsWord u v ∧ endsWord u (v ++ ['a']) = endsWord u v

theorem hasSettledSigmas_iff {cs : List Char} : HasSettledSigmas cs ↔ ∀ n < cs.length, cs[n]? = some 'Σ' →
    endsWord ('a' :: cs.take n) (cs.drop (n + 1)) = endsWord (cs.take n) (cs.drop (n + 1)) ∧
      endsWord (cs.take n) (cs.drop (n + 1) ++ ['a']) = endsWord (cs.take n) (cs.drop (n + 1)) := by
  constructor
  · intro h n hn hsigma
    have hget : cs[n] = 'Σ' := by simpa [hn] using hsigma
    refine h _ _ ?_
    rw [← hget, List.cons_getElem_drop_succ, List.take_append_drop]
  · rintro h u v rfl
    simpa using h u.length (by simp) (by simp)

instance (cs : List Char) : Decidable (HasSettledSigmas cs) := decidable_of_iff _ hasSettledSigmas_iff.symm

/-- No other characters around them make a difference either. -/
theorem HasSettledSigmas.endsWord_eq {cs : List Char} (h : HasSettledSigmas cs) (hcs : cs = u ++ 'Σ' :: v)
    (before after : List Char) : endsWord (before ++ u) (v ++ after) = endsWord u v := by
  obtain ⟨hbefore, hafter⟩ := h u v hcs
  have hpassed : v.all isCaseIgnorable = true → startsCased v = false := by
    intro hv
    have hnil : v.dropWhile isCaseIgnorable = [] := by simpa using hv
    rw [startsCased, hnil]
    rfl
  have hread (s : Bool) : casedAfter s u = if s then casedAfter true u else casedAfter false u := by cases s <;> rfl
  unfold endsWord at *
  rw [casedAfter_letter] at hbefore
  rw [startsCased_append, startsCased_letter] at hafter
  rw [casedAfter_append, startsCased_append, hread (casedAfter false before)]
  revert hbefore hafter hpassed
  generalize casedAfter false before = s, startsCased after = e, casedAfter false u = x, casedAfter true u = x',
    startsCased v = y, v.all isCaseIgnorable = passed
  revert s e x x' y passed
  decide

/-! ## Occurrence -/

/-- A list does not occur where one of its characters has been replaced by another. -/
theorem not_infix_replaced {c d : Char} (p q : List Char) {pre post : List Char} (hne : c ≠ d) (hpre : c ∉ pre)
    (hpost : c ∉ post) : ¬ p ++ c :: q <:+: pre ++ (p ++ d :: q) ++ post := by
  intro h
  have hcount := h.sublist.count_le c
  simp only [List.count_append, List.count_cons_self, List.count_cons_of_ne hne.symm, List.count_eq_zero.2 hpre,
    List.count_eq_zero.2 hpost] at hcount
  omega

theorem occursFolded_lower_iff {t hay : String} :
    occursFolded (lower t) hay = true ↔ lowerBetween [] [] t.toList <:+: lowerBetween [] [] hay.toList := by
  rw [occursFolded, occurs_iff, toList_lower_eq, toList_lower_eq]

/-- The lower case of a text occurs at a place of the text, if the same capital sigmas end words there. -/
theorem occursFolded_of_endsWord_eq {t hay : String} (hhay : hay.toList = before ++ t.toList ++ after)
    (h : ∀ u v, t.toList = u ++ 'Σ' :: v → endsWord (before ++ u) (v ++ after) = endsWord u v) :
    occursFolded (lower t) hay = true := by
  rw [occursFolded_lower_iff, hhay, lowerBetween_append, lowerBetween_append]
  have hsame : lowerBetween before after t.toList = lowerBetween [] [] t.toList :=
    lowerBetween_congr fun u v ht => by simpa using h u v ht
  rw [List.nil_append, List.append_nil, hsame]
  exact List.infix_append ..

/-- A text does not occur where one of its sigmas comes to end a word, or ceases to, and all else is as in
the text. -/
theorem not_occursFolded_of_endsWord_ne {t hay : String} (before after : List Char) (ht : t.toList = u ++ 'Σ' :: v)
    (hhay : hay.toList = before ++ t.toList ++ after) (hne : endsWord (before ++ u) (v ++ after) ≠ endsWord u v)
    (hu : lowerBetween before ('Σ' :: v ++ after) u = lowerBetween [] ('Σ' :: v) u)
    (hv : lowerBetween (before ++ (u ++ ['Σ'])) after v = lowerBetween (u ++ ['Σ']) [] v)
    (hbefore : ∀ next, ∀ c ∈ lowerBetween [] next before, c ≠ 'σ' ∧ c ≠ 'ς')
    (hafter : ∀ c ∈ lowerBetween (before ++ t.toList) [] after, c ≠ 'σ' ∧ c ≠ 'ς') :
    ¬ occursFolded (lower t) hay = true := by
  rw [occursFolded_lower_iff, hhay, lowerBetween_append, lowerBetween_append, List.nil_append, List.append_nil, ht,
    lowerBetween_sigma, lowerBetween_sigma, hu, List.nil_append, List.nil_append, List.append_nil, List.append_nil, hv]
  rw [ht] at hafter
  cases hword : endsWord u v with
  | false =>
    have hmoved : endsWord (before ++ u) (v ++ after) = true := by simpa [hword] using hne
    rw [hmoved]
    exact not_infix_replaced _ _ (by decide) (fun h => (hbefore _ _ h).1 rfl) fun h => (hafter _ h).1 rfl
  | true =>
    have hmoved : endsWord (before ++ u) (v ++ after) = false := by simpa [hword] using hne
    rw [hmoved]
    exact not_infix_replaced _ _ (by decide) (fun h => (hbefore _ _ h).2 rfl) fun h => (hafter _ h).2 rfl

theorem lowerBetween_letter (before after : List Char) : lowerBetween before after ['a'] = ['a'] := by
  have hletter : lowerChar 'a' = ['a'] := by decide
  rw [lowerBetween, imageBetween, if_neg (by decide), hletter]
  rfl

theorem not_sigma_of_mem_letter {c : Char} (h : c ∈ lowerBetween before after ['a']) : c ≠ 'σ' ∧ c ≠ 'ς' := by
  rw [lowerBetween_letter, List.mem_singleton] at h
  rw [h]
  decide

/-- A text is not found behind a letter that brings a sigma of it to the end of a word. -/
theorem not_occursFolded_letter_before {t : String} (ht : t.toList = u ++ 'Σ' :: v)
    (hne : endsWord ('a' :: u) v ≠ endsWord u v) :
    ¬ occursFolded (lower t) (String.ofList (['a'] ++ t.toList)) = true := by
  -- what stands before the sigma is all passed over, so that no other sigma is there
  have hu : 'Σ' ∉ u := by
    rcases casedAfter_cases u with ⟨hu, -⟩ | hu
    · exact sigma_notMem hu
    · refine absurd ?_ hne
      rw [endsWord, endsWord, casedAfter_letter, hu true]
  refine not_occursFolded_of_endsWord_ne ['a'] [] ht (by simp) (by simpa using hne)
    (lowerBetween_of_notMem hu) (lowerBetween_congr fun u' v' _ => ?_) (fun _ _ => not_sigma_of_mem_letter) nofun
  simp [endsWord, casedAfter_sigma, casedAfter_letter]

/-- A text is not found in front of a letter by which a sigma of it no longer ends a word. -/
theorem not_occursFolded_letter_after {t : String} (ht : t.toList = u ++ 'Σ' :: v)
    (hne : endsWord u (v ++ ['a']) ≠ endsWord u v) :
    ¬ occursFolded (lower t) (String.ofList (t.toList ++ ['a'])) = true := by
  have hv : 'Σ' ∉ v := by
    refine sigma_notMem fun c hc => ?_
    by_contra hcase
    refine hne ?_
    have hnotAll : v.all isCaseIgnorable = false := List.all_eq_false.2 ⟨c, hc, hcase⟩
    rw [endsWord, endsWord, startsCased_append, hnotAll]
    rfl
  refine not_occursFolded_of_endsWord_ne [] ['a'] ht (by simp) hne
    (lowerBetween_congr fun u' v' _ => ?_) (lowerBetween_of_notMem hv) (fun _ => nofun) fun _ => not_sigma_of_mem_letter
  simp only [endsWord, List.nil_append, List.cons_append]
  rw [startsCased_sigma v' (v ++ ['a']) v]

/-- The lower case of a text occurs wherever the text does, exactly if its capital sigmas are settled. -/
theorem forall_occursFolded_lower_iff {t : String} :
    (∀ hay, occurs t hay = true → occursFolded (lower t) hay = true) ↔ HasSettledSigmas t.toList := by
  constructor
  · intro h u v ht
    constructor
    · by_contra hne
      refine not_occursFolded_letter_before ht hne (h _ (occurs_iff.2 ?_))
      rw [String.toList_ofList]
      exact (List.suffix_append ..).isInfix
    · by_contra hne
      refine not_occursFolded_letter_after ht hne (h _ (occurs_iff.2 ?_))
      rw [String.toList_ofList]
      exact (List.prefix_append ..).isInfix
  · intro h hay hoccurs
    obtain ⟨before, after, hhay⟩ := occurs_iff.1 hoccurs
    exact occursFolded_of_endsWord_eq hhay.symm fun u v ht => h.endsWord_eq ht before after

end IssueQuery.Text
