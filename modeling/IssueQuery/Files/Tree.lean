/-
A tree of files in memory.
-/
import IssueQuery.Files
import IssueQuery.Files.Path

namespace IssueQuery

/-- Directories and files by the names that lead to them from the root, and the current directory. A
directory has no text. -/
structure Tree where
  nodes : List (List String × Option String)
  here : List String
  deriving DecidableEq

namespace Tree

def empty : Tree := ⟨[], []⟩

/-- What stands at the end of the names. -/
def entry (t : Tree) (names : List String) : Entry :=
  if names.isEmpty then .directory
  else
    match t.nodes.lookup names with
    | none => .missing
    | some none => .directory
    | some (some text) => .file text

def isDirectory (t : Tree) (names : List String) : Bool := t.entry names == .directory

/-- The tree with a node at the end of the names. -/
def put (t : Tree) (names : List String) (node : Option String) : Tree :=
  ⟨(names, node) :: t.nodes.filter fun (n, _) => n != names, t.here⟩

/-- Where a path begins: at the root or in the current directory. -/
def start (t : Tree) (path : String) : List String := if Path.isAbsolute path then [] else t.here

/-- The names that a path leads to. All but the last must be directories. -/
def walk (t : Tree) (names : List String) : List String → Option (List String)
  | [] => some names
  | piece :: more =>
    if !t.isDirectory names then none
    else if Path.isVoid piece then t.walk names more
    else if piece == ".." then t.walk names.dropLast more
    else t.walk (names ++ [piece]) more

/-- The names that a path leads to, its first void piece passed over if it is absolute. -/
def resolve (t : Tree) (path : String) : Option (List String) :=
  if path.isEmpty then none else t.walk (t.start path) (Path.pieces path)

/-- What stands at a path. -/
def look (t : Tree) (path : String) : Entry :=
  match t.resolve path with
  | some names => t.entry names
  | none => .missing

/-- The tree with a text in a file, if the file can be there. -/
def write (t : Tree) (path text : String) : Option Tree :=
  match t.resolve path with
  | some names =>
    if t.isDirectory names || !t.isDirectory names.dropLast then none
    else some (t.put names (some text))
  | none => none

/-- Goes along the pieces and makes each directory that is missing. -/
def makeAlong (t : Tree) (names : List String) : List String → Option Tree
  | [] => some t
  | piece :: more =>
    if Path.isVoid piece then t.makeAlong names more
    else if piece == ".." then t.makeAlong names.dropLast more
    else
      match t.entry (names ++ [piece]) with
      | .directory => t.makeAlong (names ++ [piece]) more
      | .missing => (t.put (names ++ [piece]) none).makeAlong (names ++ [piece]) more
      | _ => none

/-- The tree with a directory and those around it. -/
def makeDirectories (t : Tree) (path : String) : Option Tree :=
  t.makeAlong (t.start path) (Path.pieces path)

/-- The tree after a change and whether the change succeeded; otherwise the tree as it was. -/
def changed (t : Tree) : Option Tree → Bool × Tree
  | some t => (true, t)
  | none => (false, t)

instance : Files (StateM Tree) where
  here := fun t => (Path.ofPieces ("" :: t.here).reverse, t)
  look path := fun t => (t.look path, t)
  write path text := fun t => t.changed (t.write path text)
  makeDirectories path := fun t => t.changed (t.makeDirectories path)

end Tree

end IssueQuery
