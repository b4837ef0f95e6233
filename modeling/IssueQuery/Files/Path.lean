/-
Paths: names of directories and files with slashes between them. A path that begins with a slash is
absolute.
-/

namespace IssueQuery.Path

def isAbsolute (p : String) : Bool := p.toList.head? == some '/'

/-- The path `p` seen from the directory `base`. -/
def join (base p : String) : String :=
  if isAbsolute p || base.isEmpty then p
  else if base.toList.getLast? == some '/' then base ++ p
  else base ++ "/" ++ p

/-- The pieces between the slashes. -/
def pieces (p : String) : List String := (p.toList.splitOn '/').map String.ofList

/-- A piece that names no other directory than the one before it. -/
def isVoid (piece : String) : Bool := piece.isEmpty || piece == "."

/-- The pieces, last first, without void ones at the end of the path; the first piece of the path
stays in any case. -/
def trimmed : List String → List String
  | [] => []
  | [piece] => [piece]
  | piece :: more => if isVoid piece then trimmed more else piece :: more

/-- The path whose pieces, last first, are given. -/
def ofPieces (latestFirst : List String) : String :=
  match latestFirst with
  | [""] => "/"
  | ps => "/".intercalate ps.reverse

/-- The path without its last name. The root and the empty path have no parent. -/
def parent? (p : String) : Option String :=
  match trimmed (pieces p).reverse with
  | [] => none
  | [piece] => if piece.isEmpty then none else some ""
  | _ :: more => some (ofPieces (trimmed more))

/-- The directories whose pieces, last first, end the given ones, the deepest first. -/
def ancestorsOf : List String → List String
  | [] => []
  | piece :: more => ofPieces (piece :: more) :: ancestorsOf more

/-- A directory and all directories around it, the innermost first. -/
def ancestors (p : String) : List String := ancestorsOf (trimmed (pieces p).reverse)

end IssueQuery.Path
