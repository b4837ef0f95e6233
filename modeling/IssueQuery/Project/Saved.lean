/-
Saved filters: texts kept under names, to which other filters refer by an at sign and the name. A
filter is kept in canonical form with its own references expanded, so that none depends on another.
-/
import IssueQuery.Colour
import IssueQuery.Filter.Parser
import IssueQuery.Filter.Scope
import IssueQuery.Project.Error

namespace IssueQuery

/-- Texts by name, in the order of their names. -/
structure SavedFilters where
  entries : List (String × String)
  deriving DecidableEq

namespace SavedFilters

/-! ## Names -/

/-- Letters, digits, hyphens and underscores make up names. -/
def isNameChar (c : Char) : Bool := c.isAlphanum || c == '-' || c == '_'

def isValidName (name : String) : Bool := !name.toList.isEmpty && name.toList.all isNameChar

/-! ## The store -/

def empty : SavedFilters := ⟨[]⟩

/-- The text kept under a name. -/
def find? (s : SavedFilters) (name : String) : Option String := s.entries.lookup name

/-- The entries with a text under a name, in the place of any text there. -/
def insertEntry (name text : String) : List (String × String) → List (String × String)
  | [] => [(name, text)]
  | (n, t) :: es =>
    if name < n then (name, text) :: (n, t) :: es
    else if name = n then (name, text) :: es
    else (n, t) :: insertEntry name text es

def insert (s : SavedFilters) (name text : String) : SavedFilters := ⟨insertEntry name text s.entries⟩

def erase (s : SavedFilters) (name : String) : SavedFilters :=
  ⟨s.entries.filter fun (n, _) => n != name⟩

/-- The store that holds the given texts; of two under one name the later counts. -/
def ofList (es : List (String × String)) : SavedFilters :=
  es.foldl (fun s (name, text) => s.insert name text) empty

/-! ## References -/

/-- The text that a reference stands for: the saved one between brackets, or nothing if that is
empty. An at sign without a name stands for itself. -/
def reference (s : SavedFilters) (name : List Char) : Except ProjectError (List Char) :=
  if name.isEmpty then .ok ['@']
  else
    match s.find? (String.ofList name) with
    | none => .error (.savedFilterNotFound (String.ofList name))
    | some text => .ok (if text.isEmpty then [] else '(' :: text.toList ++ [')'])

/-- The characters with each reference replaced by what it stands for. -/
def expandChars (s : SavedFilters) : List Char → Except ProjectError (List Char)
  | [] => .ok []
  | c :: cs =>
    if c == '@' then do
      let replaced ← s.reference (cs.takeWhile isNameChar)
      have : (cs.dropWhile isNameChar).length < cs.length + 1 :=
        Nat.lt_succ_of_le (Text.length_dropWhile_le isNameChar cs)
      return replaced ++ (← s.expandChars (cs.dropWhile isNameChar))
    else return c :: (← s.expandChars cs)
termination_by cs => cs.length

/-- The text with each reference replaced by what it stands for. -/
def expand (s : SavedFilters) (text : String) : Except ProjectError String :=
  (s.expandChars text.toList).map String.ofList

/-! ## Changes -/

/-- A filter read from a text. -/
def parseFilter (text : String) : Except ProjectError Filter :=
  (Filter.parse text).mapError fun e => .filter (.unreadable e)

/-- The scope of a filter. -/
def scopeOf (f : Filter) : Except ProjectError Scope :=
  (Scope.ofFilter? f).mapError fun e => .filter (.meaningless e)

/-- Keeps a filter under a name, and gives its canonical form. A name that is taken is only
replaced by force. -/
def save (s : SavedFilters) (name text : String) (force : Bool) :
    Except ProjectError (String × SavedFilters) := do
  let f ← parseFilter (← s.expand text)
  let _ ← scopeOf f
  if !isValidName name then throw (.invalidFilterName name)
  if !force && (s.find? name).isSome then throw (.savedFilterExists name)
  return (f.text, s.insert name f.text)

/-- Drops the filter of a name, and gives its text. -/
def remove (s : SavedFilters) (name : String) : Except ProjectError (String × SavedFilters) :=
  match s.find? name with
  | some text => .ok (text, s.erase name)
  | none => .error (.savedFilterNotFound name)

/-- A change to the saved filters. -/
inductive Edit
  | add (name text : String) (force : Bool)
  | remove (name : String)
  deriving DecidableEq, Repr

/-- The name whose filter changes. -/
def Edit.name : Edit → String
  | add name .. => name
  | remove name => name

/-- The text that a change puts in or takes away, and the filters with the change. -/
def change (s : SavedFilters) : Edit → Except ProjectError (String × SavedFilters)
  | .add name text force => s.save name text force
  | .remove name => s.remove name

/-- What comes of a change, and the filters after it. -/
def perform (s : SavedFilters) (e : Edit) : Except ProjectError String × SavedFilters :=
  match s.change e with
  | .ok (text, after) => (.ok text, after)
  | .error error => (.error error, s)

/-! ## Listing -/

/-- A line for each filter, the names in a column of their own. -/
def listing (coloured : Bool) (s : SavedFilters) : String :=
  if s.entries.isEmpty then "No saved filters\n"
  else
    let width := (s.entries.map fun (name, _) => name.utf8ByteSize).foldl max 0
    String.join (s.entries.map fun (name, text) =>
      Colour.painted coloured Colour.literal ("@" ++ Text.padRight width name) ++ "  " ++ text ++ "\n")

end SavedFilters

end IssueQuery
