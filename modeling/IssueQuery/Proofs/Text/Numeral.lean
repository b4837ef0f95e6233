/-
Numerals that are written and read again: padded ones of a fixed width, and signed numbers within
their bounds.
-/
import IssueQuery.Proofs.Text.Classes
import IssueQuery.Text.Numeral

namespace IssueQuery.Text

/-! ## Runs of digits -/

theorem natural?_eq {ds : List Char} (h : ∀ c ∈ ds, c.isDigit = true) (hne : ds ≠ []) :
    natural? ds = some (Nat.ofDigitChars 10 ds 0) := by
  unfold natural?
  rw [if_pos]
  simp only [Bool.and_eq_true, Bool.not_eq_true', List.isEmpty_eq_false_iff, List.all_eq_true]
  exact ⟨hne, h⟩

theorem natural?_eq_some_iff {cs : List Char} {n : Nat} : natural? cs = some n ↔
    cs ≠ [] ∧ (∀ c ∈ cs, c.isDigit = true) ∧ Nat.ofDigitChars 10 cs 0 = n := by
  simp only [natural?, Option.ite_none_right_eq_some, Bool.and_eq_true, Bool.not_eq_true', List.isEmpty_eq_false_iff,
    List.all_eq_true, Option.some.injEq, and_assoc]

theorem toNat_of_isDigit {c : Char} (h : c.isDigit = true) : 48 ≤ c.toNat ∧ c.toNat ≤ 57 := by
  simpa [Char.isDigit, UInt32.le_iff_toNat_le] using h

theorem ofDigitChars_lt {ds : List Char} (h : ∀ c ∈ ds, c.isDigit = true) :
    Nat.ofDigitChars 10 ds 0 < 10 ^ ds.length := by
  have hbound (init : Nat) : Nat.ofDigitChars 10 ds init < 10 ^ ds.length * (init + 1) := by
    induction ds generalizing init with
    | nil => simp
    | cons c cs ih =>
      have hc := h c (List.mem_cons_self ..)
      have hlt := ih (fun d hd => h d (List.mem_cons_of_mem _ hd)) (10 * init + (c.toNat - '0'.toNat))
      have hle : c.toNat - '0'.toNat ≤ 9 := by
        have := (toNat_of_isDigit hc).2
        change c.toNat - 48 ≤ 9
        omega
      -- a further digit makes the place ten times as large
      rw [Nat.ofDigitChars_cons, List.length_cons, Nat.pow_succ, Nat.mul_assoc]
      refine hlt.trans_le (Nat.mul_le_mul_left _ ?_)
      omega
  simpa using hbound 0

/-! ## Padded numerals -/

theorem toList_zeroPadded (width n : Nat) : (zeroPadded width n).toList =
    List.replicate (width - (Nat.toDigits 10 n).length) '0' ++ Nat.toDigits 10 n := by
  simp [zeroPadded, padLeft, Nat.repr_eq_ofList_toDigits]

theorem isDigit_of_mem_zeroPadded {width n : Nat} {c : Char} (h : c ∈ (zeroPadded width n).toList) :
    c.isDigit = true := by
  rw [toList_zeroPadded, List.mem_append] at h
  rcases h with h | h
  · rw [List.eq_of_mem_replicate h]; rfl
  · exact Nat.isDigit_of_mem_toDigits (by omega) (by omega) h

theorem length_zeroPadded {width n : Nat} (hw : 0 < width) (hn : n < 10 ^ width) :
    (zeroPadded width n).toList.length = width := by
  have := (Nat.length_toDigits_le_iff (b := 10) (by omega) hw).2 hn
  rw [toList_zeroPadded, List.length_append, List.length_replicate]
  omega

theorem natural?_zeroPadded (width n : Nat) : natural? (zeroPadded width n).toList = some n := by
  have hne : (zeroPadded width n).toList ≠ [] := by rw [toList_zeroPadded]; simp
  rw [natural?_eq (fun c => isDigit_of_mem_zeroPadded) hne, toList_zeroPadded, Nat.ofDigitChars_append,
    Nat.ofDigitChars_replicate_zero, Nat.mul_zero, Nat.ofDigitChars_ten_toDigits]

/-! ## Signed numbers -/

theorem natural?_toDigits (n : Nat) : natural? (Nat.toDigits 10 n) = some n := by
  have hd : ∀ c ∈ Nat.toDigits 10 n, c.isDigit = true := fun c hc =>
    Nat.isDigit_of_mem_toDigits (by omega) (by omega) hc
  rw [natural?_eq hd Nat.toDigits_ne_nil, Nat.ofDigitChars_ten_toDigits]

theorem isDigit_head_toDigits {n : Nat} {c : Char} (h : c ∈ (Nat.toDigits 10 n).head?) : c.isDigit = true :=
  Nat.isDigit_of_mem_toDigits (by omega) (by omega) (List.mem_of_mem_head? h)

theorem unsigned?_eq_natural? {cs : List Char} (h : '+' ∉ cs.head?) : unsigned? cs = natural? cs := by
  unfold unsigned?
  split
  · exact absurd rfl h
  · rfl

theorem word32?_toDigits (n : Nat) : word32? (Nat.toDigits 10 n) = word32OfNat? n := by
  have hsign : '+' ∉ (Nat.toDigits 10 n).head? := fun hc => absurd (isDigit_head_toDigits hc) (by decide)
  rw [word32?, unsigned?_eq_natural? hsign, natural?_toDigits]
  rfl

theorem integer?_eq_natural? {cs : List Char} (h : ∀ c ∈ cs.head?, c ≠ '-' ∧ c ≠ '+') :
    integer? cs = (natural? cs).map fun n : Nat => (n : Int) := by
  unfold integer?
  split
  · exact absurd rfl (h '-' rfl).1
  · exact absurd rfl (h '+' rfl).2
  · cases natural? cs <;> rfl

theorem toList_toString (n : Nat) : (toString (n : Int)).toList = Nat.toDigits 10 n := by
  rw [show toString (n : Int) = n.repr from rfl, Nat.toList_repr]

theorem int64?_toString {n : Nat} (h : (n : Int) < int64Bound) : int64? (toString (n : Int)) = some (n : Int) := by
  have hsign : ∀ c ∈ (Nat.toDigits 10 n).head?, c ≠ '-' ∧ c ≠ '+' := by
    rintro c hc
    constructor <;> rintro rfl <;> exact absurd (isDigit_head_toDigits hc) (by decide)
  have hb : -int64Bound ≤ (n : Int) := by unfold int64Bound; omega
  unfold int64?
  rw [toList_toString, integer?_eq_natural? hsign, natural?_toDigits]
  simp [Option.filter, h, hb]

/-- A numeral without a sign denotes a natural number within the bound. -/
theorem exists_of_int64? {s : String} {n : Int} (hs : ∀ c ∈ s.toList.head?, c ≠ '-' ∧ c ≠ '+')
    (h : int64? s = some n) : ∃ k : Nat, n = k ∧ (k : Int) < int64Bound ∧ natural? s.toList = some k := by
  unfold int64? at h
  rw [integer?_eq_natural? hs] at h
  obtain ⟨hn, hb⟩ := Option.filter_eq_some_iff.1 h
  obtain ⟨k, hk, rfl⟩ := Option.map_eq_some_iff.1 hn
  simp only [Bool.and_eq_true, decide_eq_true_eq] at hb
  exact ⟨k, rfl, hb.2, hk⟩

/-! ## Leading zeros -/

/-- A number that is written with a leading zero. -/
structure IsPadded (s : String) : Prop where
  number : (int64? s).isSome = true
  zero : ∃ c cs, s.toList = '0' :: c :: cs

theorem toDigits_of_isDigit {c : Char} (h : c.isDigit = true) : Nat.toDigits 10 (c.toNat - '0'.toNat) = [c] := by
  obtain ⟨hlow, hhigh⟩ := toNat_of_isDigit h
  have hc : c = Char.ofNat c.toNat := (Char.ofNat_toNat c).symm
  rw [hc]
  generalize c.toNat = n at hlow hhigh
  interval_cases n <;> rfl

/-- Digits without a leading zero are those of the number that they denote. -/
theorem toDigits_ofDigitChars {ds : List Char} (hd : ∀ c ∈ ds, c.isDigit = true) (hne : ds ≠ [])
    (hzero : ∀ c cs, ds ≠ '0' :: c :: cs) : Nat.toDigits 10 (Nat.ofDigitChars 10 ds 0) = ds := by
  induction ds using List.reverseRecOn with
  | nil => exact absurd rfl hne
  | append_singleton ds c ih =>
    have hc : c.isDigit = true := hd c (by simp)
    have hlast := toDigits_of_isDigit hc
    cases ds with
    | nil => simpa [Nat.ofDigitChars_cons] using hlast
    | cons d ds =>
      have hfirst : Nat.toDigits 10 (Nat.ofDigitChars 10 (d :: ds) 0) = d :: ds := by
        refine ih (fun e he => hd e (List.mem_append_left _ he)) (List.cons_ne_nil _ _) ?_
        rintro e es heq
        exact hzero e (es ++ [c]) (by rw [heq]; rfl)
      -- the digits before the last denote zero only if they are a zero alone
      have hpos : 0 < Nat.ofDigitChars 10 (d :: ds) 0 := by
        by_contra h0
        rw [Nat.eq_zero_of_not_pos h0, Nat.toDigits_zero] at hfirst
        obtain ⟨rfl, rfl⟩ := List.cons.inj hfirst
        exact hzero c [] rfl
      have hlt : c.toNat - '0'.toNat < 10 := by
        have := (toNat_of_isDigit hc).2
        change c.toNat - 48 < 10
        omega
      rw [Nat.ofDigitChars_append, Nat.ofDigitChars_cons, Nat.ofDigitChars_nil,
        ← Nat.toDigits_append_toDigits (by omega) hpos hlt, hfirst, hlast]

/-- A number has fewer digits than a numeral of it with a leading zero. -/
theorem length_toDigits_lt {ds : List Char} (hd : ∀ c ∈ ds, c.isDigit = true) (hne : ds ≠ []) :
    (Nat.toDigits 10 (Nat.ofDigitChars 10 ('0' :: ds) 0)).length < ('0' :: ds).length := by
  have hvalue : Nat.ofDigitChars 10 ('0' :: ds) 0 = Nat.ofDigitChars 10 ds 0 := rfl
  rw [hvalue, List.length_cons, Nat.lt_succ_iff]
  exact (Nat.length_toDigits_le_iff (by omega) (List.length_pos_iff.2 hne)).2 (ofDigitChars_lt hd)

/-- A number without a sign is written as numbers are shown, unless a zero leads it. -/
theorem toString_of_int64? {s : String} {n : Int} (hs : ∀ c ∈ s.toList.head?, c ≠ '-' ∧ c ≠ '+')
    (h : int64? s = some n) (hpadded : ¬ IsPadded s) : toString n = s := by
  obtain ⟨k, rfl, -, hk⟩ := exists_of_int64? hs h
  obtain ⟨hne, hd, rfl⟩ := natural?_eq_some_iff.1 hk
  have hzero : ∀ c cs, s.toList ≠ '0' :: c :: cs := fun c cs hcs => hpadded ⟨by rw [h]; rfl, c, cs, hcs⟩
  rw [← String.toList_inj, toList_toString, toDigits_ofDigitChars hd hne hzero]

/-- With a leading zero, more digits are written than the number has. -/
theorem IsPadded.digits {s : String} {n : Int} (hpadded : IsPadded s) (h : int64? s = some n) :
    (∀ c ∈ s.toList, c.isDigit = true) ∧ (∀ c ∈ (toString n).toList, c.isDigit = true) ∧
      (toString n).toList.length < s.toList.length := by
  obtain ⟨-, c, cs, hcs⟩ := hpadded
  have hs : ∀ d ∈ s.toList.head?, d ≠ '-' ∧ d ≠ '+' := by simp [hcs]
  obtain ⟨k, rfl, -, hk⟩ := exists_of_int64? hs h
  obtain ⟨-, hd, rfl⟩ := natural?_eq_some_iff.1 hk
  rw [toList_toString]
  refine ⟨hd, fun d hmem => Nat.isDigit_of_mem_toDigits (by omega) (by omega) hmem, ?_⟩
  rw [hcs] at hd ⊢
  exact length_toDigits_lt (fun d hmem => hd d (List.mem_cons_of_mem _ hmem)) (List.cons_ne_nil c cs)

end IssueQuery.Text
