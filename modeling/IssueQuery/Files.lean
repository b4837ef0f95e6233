/-
What a project needs of the files around it.
-/

namespace IssueQuery

/-- What stands at a path. -/
inductive Entry
  | missing
  | directory
  | file (text : String)
  /-- A file whose content is no text. -/
  | garbled
  deriving DecidableEq

/-- Whether there is anything at the path. -/
def Entry.exists : Entry → Bool
  | missing => false
  | _ => true

/-- Files that can be looked at and changed; a change tells whether it succeeded. -/
class Files (m : Type → Type) where
  /-- The current directory, as an absolute path. -/
  here : m String
  look (path : String) : m Entry
  /-- Makes the text the content of a file, which need not be there yet. -/
  write (path text : String) : m Bool
  /-- Makes a directory and those around it, as far as they are missing. -/
  makeDirectories (path : String) : m Bool

instance {ε : Type} {m : Type → Type} [Monad m] [Files m] : Files (ExceptT ε m) where
  here := liftM (Files.here : m String)
  look path := liftM (Files.look path : m Entry)
  write path text := liftM (Files.write path text : m Bool)
  makeDirectories path := liftM (Files.makeDirectories path : m Bool)

end IssueQuery
