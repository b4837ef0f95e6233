/-
JSON values, and how structures are laid out in them: an object with a field each, or an array with
the fields in order.
-/
import IssueQuery.Text.Numeral

namespace IssueQuery

/-- A JSON value. A string or key that is no Unicode text has no content. -/
inductive Json
  | null
  | bool (b : Bool)
  | natural (n : Nat)
  | number (numeral : String)
  | string (s : Option String)
  | array (items : List Json)
  | object (fields : List (Option String × Json))
  deriving Inhabited

namespace Json

/-! ## Making values -/

def text (s : String) : Json := string (some s)

/-- An object of the fields that are present. -/
def record (fields : List (String × Option Json)) : Json :=
  object (fields.filterMap fun (name, value) => value.map fun v => (some name, v))

/-! ## Reading values -/

def text? : Json → Option String
  | string s => s
  | _ => none

def bool? : Json → Option Bool
  | bool b => some b
  | _ => none

/-- A natural number that fits in 32 bits. -/
def word32? : Json → Option UInt32
  | natural n => Text.word32OfNat? n
  | _ => none

/-- A list whose items are read by `item`. -/
def list? {α : Type} (item : Json → Option α) : Json → Option (List α)
  | array items => items.mapM item
  | _ => none

/-- A value that may be null. -/
def nullable? {α : Type} (value : Json → Option α) : Json → Option (Option α)
  | null => some none
  | v => (value v).map some

/-- One of several words, as a string or as the only field of an object whose value is null. -/
def word? {α : Type} (words : List (String × α)) : Json → Option α
  | string s => s.bind fun s => words.lookup s
  | object [(key, null)] => key.bind fun s => words.lookup s
  | _ => none

/-! ## Structures -/

/-- The values of the named fields, in the order of the names. An object may hold other fields too,
but none of these twice; an array may end early. -/
def fields? (names : List String) : Json → Option (List (Option Json))
  | object fields => do
    let keys ← fields.mapM (·.1)
    if (keys.filter names.contains).Nodup then some (names.map fun n => fields.lookup (some n)) else none
  | array items =>
    if items.length ≤ names.length then
      some (items.map some ++ List.replicate (names.length - items.length) none)
    else none
  | _ => none

/-- A field that must be present. -/
def required {α : Type} (value : Json → Option α) (field : Option Json) : Option α := field.bind value

/-- A field whose absence stands for `absent`. -/
def defaulted {α : Type} (absent : α) (value : Json → Option α) : Option Json → Option α
  | none => some absent
  | some v => value v

/-- A field that may be absent or null. -/
def optional {α : Type} (value : Json → Option α) : Option Json → Option (Option α) :=
  defaulted none (nullable? value)

end Json

end IssueQuery
