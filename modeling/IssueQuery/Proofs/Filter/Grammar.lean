/-
The grammar of filters over tokens, wherever these stand: what content a qualifier takes, and how
disjunction, conjunction, negation and brackets build expressions. The grammar fixes the groups of a
disjunction, and the order of a conjunction but not its groups.
-/
import IssueQuery.Filter.Parser
import IssueQuery.Proofs.Token.Lexes

namespace IssueQuery

namespace Token.Shape

/-- The number that a symbol denotes. -/
def number? (s : Shape) : Option Int := if s.kind = .symbol then Text.int64? s.text else none

/-- The date that a date token denotes, if the calendar has it. -/
def date? (s : Shape) : Option Date := if s.kind = .date then Date.ofText? s.text else none

/-- The name of a qualifier in lower case. -/
def name (s : Shape) : String := Text.lower (qualifierName ⟨s.kind, s.text, 0⟩)

end Token.Shape

namespace Filter

open Token (Shape)
open Qualifier (Content)

/-! ## Content of qualifiers -/

/-- Words between quotes, for which symbols and dates will do. -/
inductive IsQuoted : List Shape → String → Prop
  | mk {opening closing : Shape} {words : List Shape} :
    opening.kind = .quote → (∀ w ∈ words, w.kind = .symbol ∨ w.kind = .date) → closing.kind = .quote →
    IsQuoted (opening :: (words ++ [closing])) (" ".intercalate (words.map Shape.text))

/-- A sort key, reversed by a negation before it. -/
inductive IsKey : List Shape → SortKey → Prop
  | plain {s : Shape} : s.kind = .symbol → IsKey [s] ⟨s.text, false⟩
  | reversed {n s : Shape} : n.kind = .not → s.kind = .symbol → IsKey [n, s] ⟨s.text, true⟩

/-- Sort keys with commas between them. -/
inductive IsKeys : List Shape → List SortKey → Prop
  | one {ss : List Shape} {k : SortKey} : IsKey ss k → IsKeys ss [k]
  | cons {ss us : List Shape} {comma : Shape} {k : SortKey} {ks : List SortKey} :
    IsKey ss k → comma.kind = .comma → IsKeys us ks → IsKeys (ss ++ comma :: us) (k :: ks)

/-- A single value, or a range of them. -/
inductive IsSpan {α : Type} (value? : Shape → Option α) (one : α → Content) (range : Range α → Content) :
    List Shape → Content → Prop
  | one {s : Shape} {a : α} : value? s = some a → IsSpan value? one range [s] (one a)
  | between {s dots s' : Shape} {a b : α} :
    value? s = some a → dots.kind = .dots → value? s' = some b →
    IsSpan value? one range [s, dots, s'] (range (.between a b))
  | onwards {s dots star : Shape} {a : α} :
    value? s = some a → dots.kind = .dots → star.kind = .star →
    IsSpan value? one range [s, dots, star] (range (.above a false))
  | above {sign s : Shape} {a : α} :
    sign.kind = .above → value? s = some a → IsSpan value? one range [sign, s] (range (.above a true))
  | atLeast {sign s : Shape} {a : α} :
    sign.kind = .atLeast → value? s = some a → IsSpan value? one range [sign, s] (range (.above a false))
  | below {sign s : Shape} {a : α} :
    sign.kind = .below → value? s = some a → IsSpan value? one range [sign, s] (range (.below a true))
  | atMost {sign s : Shape} {a : α} :
    sign.kind = .atMost → value? s = some a → IsSpan value? one range [sign, s] (range (.below a false))

/-- What may stand after the name of a qualifier. A symbol that denotes a number is one. -/
inductive IsContent (name : String) : List Shape → Content → Prop
  | sortKeys {ss : List Shape} {ks : List SortKey} :
    Qualifier.Kind.ofName name = .sort → IsKeys ss ks → IsContent name ss (.sortKeys ks)
  | dates {ss : List Shape} {c : Content} :
    Qualifier.Kind.ofName name ≠ .sort → IsSpan Shape.date? .date .dates ss c → IsContent name ss c
  | numbers {ss : List Shape} {c : Content} :
    Qualifier.Kind.ofName name ≠ .sort → IsSpan Shape.number? .number .numbers ss c → IsContent name ss c
  | quoted {ss : List Shape} {s : String} :
    Qualifier.Kind.ofName name ≠ .sort → IsQuoted ss s → IsContent name ss (.text s)
  | symbol {s : Shape} :
    Qualifier.Kind.ofName name ≠ .sort → s.kind = .symbol → s.number? = none → IsContent name [s] (.text s.text)

/-- Contents with semicolons between them, any of which will do. -/
inductive IsChoice (name : String) : List Shape → Filter → Prop
  | one {ss : List Shape} {c : Content} : IsContent name ss c → IsChoice name ss (leaf (.named name c))
  | or {ss us : List Shape} {semicolon : Shape} {f : Filter} {c : Content} :
    IsChoice name ss f → semicolon.kind = .semicolon → IsContent name us c →
    IsChoice name (ss ++ semicolon :: us) (or f (leaf (.named name c)))

/-! ## Expressions -/

/-- The phrases an expression is built of. -/
inductive Phrase
  | unary | conjunction | disjunction

/-- The tokens form a phrase, whose filter is the one given. Between two operands of a conjunction
the sign may be left out. -/
inductive Derives : Phrase → List Shape → Filter → Prop
  | symbol {s : Shape} : s.kind = .symbol → Derives .unary [s] (leaf (.keyword s.text))
  | quoted {ss : List Shape} {s : String} : IsQuoted ss s → Derives .unary ss (leaf (.keyword s))
  | qualifier {s : Shape} {ss : List Shape} {f : Filter} :
    s.kind = .qualifier → IsChoice s.name ss f → Derives .unary (s :: ss) f
  | not {s : Shape} {ss : List Shape} {f : Filter} :
    s.kind = .not → Derives .unary ss f → Derives .unary (s :: ss) (not f)
  | brackets {opening closing : Shape} {ss : List Shape} {f : Filter} :
    opening.kind = .openBracket → Derives .disjunction ss f → closing.kind = .closeBracket →
    Derives .unary (opening :: (ss ++ [closing])) f
  | operand {ss : List Shape} {f : Filter} : Derives .unary ss f → Derives .conjunction ss f
  | and {ss us : List Shape} {sign : Shape} {f g : Filter} :
    Derives .conjunction ss f → sign.kind = .and → Derives .unary us g →
    Derives .conjunction (ss ++ sign :: us) (and f g)
  | juxtaposed {ss us : List Shape} {f g : Filter} :
    Derives .conjunction ss f → Derives .unary us g → Derives .conjunction (ss ++ us) (and f g)
  | conjunction {ss : List Shape} {f : Filter} : Derives .conjunction ss f → Derives .disjunction ss f
  | or {ss us : List Shape} {sign : Shape} {f g : Filter} :
    Derives .disjunction ss f → sign.kind = .or → Derives .conjunction us g →
    Derives .disjunction (ss ++ sign :: us) (or f g)

/-- The tokens form a filter; none at all form the empty one. -/
inductive IsFilter : List Shape → Filter → Prop
  | empty : IsFilter [] empty
  | disjunction {ss : List Shape} {f : Filter} : Derives .disjunction ss f → IsFilter ss f

end Filter

end IssueQuery
