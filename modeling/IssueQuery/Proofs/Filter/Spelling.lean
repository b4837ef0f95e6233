/-
The tokens of a filter's text: those of its leaves with brackets, signs and connectives between them.
-/
import IssueQuery.Filter.Printer
import IssueQuery.Proofs.Filter.Display
import IssueQuery.Proofs.Filter.Reread

namespace IssueQuery.Filter

open Token (Shape Lexes)
open Qualifier (Content IsName)

/-! ## Brackets -/

/-- The tokens between brackets. -/
def bracketed (ss : List Shape) : List Shape := ⟨.openBracket, "("⟩ :: (ss ++ [⟨.closeBracket, ")"⟩])

/-- A text between brackets. -/
theorem lexes_bracketed {cs : List Char} {ss : List Shape} (h : Lexes cs ss) :
    Lexes ('(' :: (cs ++ [')'])) (bracketed ss) :=
  Token.lexes_around_iff.2 ⟨[], ss, [], rfl, .done (List.forall_mem_nil _), h, .done (List.forall_mem_nil _)⟩

/-- The tokens of a filter behind a connective, between brackets if it is a conjunction. -/
def guardedTokens (f : Filter) (ss : List Shape) : List Shape := if f.isJoined then bracketed ss else ss

theorem lexes_guarded {f : Filter} {ss : List Shape} (h : Lexes f.text.toList ss) :
    Lexes (guarded f f.text).toList (guardedTokens f ss) := by
  cases f with
  | and left right => simpa [guarded, guardedTokens, isJoined] using lexes_bracketed h
  | _ => exact h

/-! ## Spellings -/

/-- The tokens are those of the filter's text. A keyword is spelled without its name, whatever its
content; if that is neither a text nor a number, it is one that no keyword is read with. -/
inductive Spells : Filter → List Shape → Prop
  | text {ss : List Shape} {s : String} : IsContent "keyword" ss (.text s) → Spells (leaf (.keyword s)) ss
  | number {n : Int} : Spells (leaf (.named "keyword" (.number n))) [⟨.symbol, toString n⟩]
  | mute {ss : List Shape} {c : Content} :
    c.asText? = none → IsContent "keyword" ss c → Spells (leaf (.named "keyword" c)) ss
  | named {name : String} {ss : List Shape} {c : Content} :
    IsName name → Qualifier.Kind.ofName name ≠ .keyword → IsContent name ss c →
    Spells (leaf (.named name c)) (⟨.qualifier, name ++ ":"⟩ :: ss)
  | and {left right : Filter} {ss us : List Shape} :
    Spells left ss → Spells right us → Spells (and left right) (ss ++ guardedTokens right us)
  | or {left right : Filter} {ss us : List Shape} :
    Spells left ss → Spells right us → Spells (or left right) (bracketed (ss ++ ⟨.or, "OR"⟩ :: us))
  | not {inner : Filter} {ss : List Shape} :
    Spells inner ss → Spells (not inner) (⟨.not, "NOT"⟩ :: guardedTokens inner ss)

theorem exists_spells_leaf {q : Qualifier} (h : q.Legible) : ∃ ss, Lexes q.text.toList ss ∧ Spells (leaf q) ss := by
  cases q with
  | empty => exact absurd h id
  | named name c =>
    obtain ⟨hname, hc⟩ := h
    obtain ⟨ss, hss, hcontent, -⟩ := exists_lexes_display hc
    by_cases hk : Qualifier.Kind.ofName name = .keyword
    · obtain rfl := hname.eq_keyword hk
      rw [Qualifier.text, if_pos hk]
      cases htext : c.asText? with
      | none => exact ⟨ss, hss, .mute htext hcontent⟩
      | some s =>
        cases c with
        | text s => exact ⟨ss, hss, .text hcontent⟩
        | number n =>
          cases hc with
          | number _ hplain => exact ⟨_, (isPlain_number hplain).1.lexes, .number⟩
        | _ => cases htext
    · refine ⟨_, ?_, .named hname hk hcontent⟩
      have hl := Lexes.first (hname.firstMatch? c.display.toList) hss
      rw [String.ofList_toList] at hl
      rw [Qualifier.text, if_neg hk, String.toList_append]
      exact hl

/-- The text of a filter whose leaves the notation can tell is cut into its tokens. -/
theorem exists_spells {f : Filter} (h : ∀ q ∈ f.qualifiers, q.Legible) :
    ∃ ss, Lexes f.text.toList ss ∧ Spells f ss := by
  induction f with
  | leaf q => exact exists_spells_leaf (h q (List.mem_singleton_self q))
  | and left right ihl ihr =>
    obtain ⟨ss, hss, hl⟩ := ihl fun q hq => h q (List.mem_append_left _ hq)
    obtain ⟨us, hus, hr⟩ := ihr fun q hq => h q (List.mem_append_right _ hq)
    exact ⟨_, by simpa [Filter.text] using hss.append_space (lexes_guarded hus), .and hl hr⟩
  | or left right ihl ihr =>
    obtain ⟨ss, hss, hl⟩ := ihl fun q hq => h q (List.mem_append_left _ hq)
    obtain ⟨us, hus, hr⟩ := ihr fun q hq => h q (List.mem_append_right _ hq)
    have hor := Lexes.sign (show (.or, "OR") ∈ Token.signs by simp [Token.signs]) hus.space
    exact ⟨_, by simpa [Filter.text] using lexes_bracketed (hss.append_space hor), .or hl hr⟩
  | not inner ih =>
    obtain ⟨ss, hss, hi⟩ := ih h
    have hnot := Lexes.sign (show (.not, "NOT") ∈ Token.signs by simp [Token.signs]) (lexes_guarded hss).space
    exact ⟨_, by simpa [Filter.text] using hnot, .not hi⟩

theorem IsContent.tokens_ne_nil {name : String} {ss : List Shape} {c : Content} (h : IsContent name ss c) :
    ss ≠ [] := by
  have hspan {α : Type} {value? : Shape → Option α} {one : α → Content} {range : Range α → Content}
      (h : IsSpan value? one range ss c) : ss ≠ [] := by cases h <;> exact List.cons_ne_nil _ _
  cases h with
  | sortKeys _ hkeys => exact hkeys.ne_nil
  | dates _ hdates => exact hspan hdates
  | numbers _ hnumbers => exact hspan hnumbers
  | quoted _ hquoted => cases hquoted; exact List.cons_ne_nil _ _
  | symbol => exact List.cons_ne_nil _ _

theorem Spells.ne_nil {f : Filter} {ss : List Shape} (h : Spells f ss) : ss ≠ [] := by
  induction h with
  | text hc => exact hc.tokens_ne_nil
  | mute _ hc => exact hc.tokens_ne_nil
  | and _ _ ihl => exact List.append_ne_nil_of_left_ne_nil ihl _
  | _ => exact List.cons_ne_nil _ _

end IssueQuery.Filter
