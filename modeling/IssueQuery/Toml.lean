/-
TOML documents: tables of strings, times, other scalars, arrays and tables, and the rules on which
part of a document may add to a table that another part has made.
-/
import IssueQuery.Toml.Time

namespace IssueQuery

namespace Toml

/-- How a table came about. -/
inductive Form
  /-- A longer header names it on the way. -/
  | implied
  /-- A header of its own opens it. -/
  | header
  /-- A dotted key names it on the way. -/
  | dotted
  /-- It stands between braces as a value. -/
  | inline
  deriving DecidableEq

end Toml

/-- A value in a document. Numbers and truth values are not told apart. -/
inductive Toml
  | string (s : String)
  | time (t : Toml.Time)
  | scalar
  | array (items : List Toml)
  | table (form : Toml.Form) (entries : List (String × Toml))
  /-- An array whose tables headers open one by one; the latest comes first. -/
  | rows (latestFirst : List (List (String × Toml)))

namespace Toml

abbrev Entries := List (String × Toml)

/-- The entries with the value of one key replaced, or added at the end. -/
def set (key : String) (value : Toml) : Entries → Entries
  | [] => [(key, value)]
  | (k, v) :: es => if k = key then (key, value) :: es else (k, v) :: set key value es

/-! ## Additions to a document -/

/-- Changes the table at the end of a path. A table that is not there is made in the form `fresh`;
one that is there must allow to be entered. Of an array of tables the latest is entered. -/
def descend (fresh : Form) (mayEnter : Form → Bool) (change : Form → Entries → Option Entries) :
    List String → Form → Entries → Option Entries
  | [], form, es => change form es
  | key :: path, _, es =>
    match es.lookup key with
    | none => (descend fresh mayEnter change path fresh []).map fun inner => set key (table fresh inner) es
    | some (table form inner) =>
      if mayEnter form then
        (descend fresh mayEnter change path form inner).map fun inner => set key (table form inner) es
      else none
    | some (rows (latest :: earlier)) =>
      (descend fresh mayEnter change path .header latest).map fun inner =>
        set key (rows (inner :: earlier)) es
    | some _ => none

/-- The header of a table: it opens a new one, or one that is only implied so far. -/
def openTable (path : List String) (key : String) (es : Entries) : Option Entries :=
  let opened (_ : Form) (es : Entries) : Option Entries :=
    match es.lookup key with
    | none => some (set key (table .header []) es)
    | some (table .implied inner) => some (set key (table .header inner) es)
    | some _ => none
  descend .implied (· != .inline) opened path .header es

/-- The header of one more table of an array. -/
def openRow (path : List String) (key : String) (es : Entries) : Option Entries :=
  let opened (_ : Form) (es : Entries) : Option Entries :=
    match es.lookup key with
    | none => some (set key (rows [[]]) es)
    | some (rows rs) => some (set key (rows ([] :: rs)) es)
    | some _ => none
  descend .implied (· != .inline) opened path .header es

/-- A dotted key with its value. The key must be new, and the table that holds it must itself come
from dotted keys. -/
def assign (path : List String) (key : String) (value : Toml) (es : Entries) : Option Entries :=
  let assigned (form : Form) (es : Entries) : Option Entries :=
    if (es.lookup key).isSome || (!path.isEmpty && form != .dotted) then none
    else some (set key value es)
  descend .dotted (fun form => form == .implied || form == .dotted) assigned path .header es

/-- A part of a document; a path and the last of its keys come apart. -/
inductive Statement
  | header (path : List String) (key : String)
  | row (path : List String) (key : String)
  | pair (path : List String) (key : String) (value : Toml)

/-- A document as far as it has been read, and the path of the table that pairs go to. -/
structure Draft where
  entries : Entries
  current : List String

/-- Adds a statement to a document. -/
def Draft.add (d : Draft) : Statement → Option Draft
  | .header path key => (openTable path key d.entries).map (⟨·, path ++ [key]⟩)
  | .row path key => (openRow path key d.entries).map (⟨·, path ++ [key]⟩)
  | .pair path key value =>
    (descend .implied (fun _ => true) (fun _ => assign path key value) d.current .header d.entries).map
      (⟨·, d.current⟩)

/-- The document that the statements make. -/
def ofStatements? (ss : List Statement) : Option Entries :=
  (ss.foldlM Draft.add ⟨[], []⟩).map (·.entries)

end Toml

end IssueQuery
