/-
Running commands on the files of a project.
-/
import IssueQuery.Command
import IssueQuery.Help
import IssueQuery.Project
import IssueQuery.Project.Change

namespace IssueQuery

/-- What a command printed, and how it failed if it did. -/
structure Report where
  out : String
  error : Option ProjectError
  deriving DecidableEq

/-! ## Filters without a project -/

namespace Command

/-- A line for each token: where it begins, in a column of its own, and the token. -/
def tokensOf (text : String) : Except ProjectError String :=
  match Token.lex text with
  | .ok lexed => .ok <| String.join <| lexed.lexemes.map fun l =>
    Text.padLeft 4 ' ' (toString l.offset) ++ "  " ++ l.display ++ "\n"
  | .error e => .error (.filter (.unreadable e))

/-- The canonical form of a filter. A text that stops too early is told from one that is wrong. -/
def checked (text : String) : Except ProjectError String :=
  match Filter.parse text with
  | .ok f => (SavedFilters.scopeOf f).map fun _ => f.text ++ "\n"
  | .error e =>
    if e.isUnfinished (Token.stopOf text) then .error (.incompleteFilter e)
    else .error (.filter (.unreadable e))

end Command

section
variable {m : Type → Type} [Monad m] [Files m]

/-! ## Commands -/

namespace Command

/-- Prints the issues that a filter selects. -/
def runList (now : Instant) (coloured : Bool) (text : String) (format : OutputFormat)
    (limit : Option Nat) : ExceptT ProjectError m String := do
  let project ← Project.openHere
  let f ← SavedFilters.parseFilter (← project.config.filters.expand text)
  let model ← project.loadModel
  match Listing.select f model now limit with
  | .ok issues => return Listing.render f format limit coloured issues
  | .error e => throw (.filter (.meaningless e))

/-- Applies a filter to an issue, and keeps the result unless the run is dry. -/
def runApply (id : UInt32) (text : String) (dryRun : Bool) : ExceptT ProjectError m String := do
  let project ← Project.openHere
  let f ← SavedFilters.parseFilter (← project.config.filters.expand text)
  let model ← project.loadModel
  let number := "#" ++ toString id.toNat
  let (outcome, after) := model.perform ⟨id, f, !dryRun⟩
  match ← outcome with
  | .unchanged => return number ++ " already matches " ++ f.text ++ "\n"
  | .updated i =>
    if dryRun then return "Would update " ++ number ++ " (dry run)\n" ++ i.details ++ "\n"
    project.saveModel after
    return "Updated " ++ number ++ "\n" ++ i.details ++ "\n"

/-- A text with its references expanded. A project is needed only if there are any. -/
def expanded (text : String) : ExceptT ProjectError m String := do
  if text.toList.contains '@' then
    let project ← Project.openHere
    project.config.filters.expand text
  else return text

def runCheck (text : String) : ExceptT ProjectError m String := do checked (← expanded text)

def runTokens (text : String) : ExceptT ProjectError m String := do tokensOf (← expanded text)

/-- Changes or lists the saved filters. -/
def runSaved (coloured : Bool) (c : SavedCommand) : ExceptT ProjectError m String := do
  let project ← Project.openHere
  let filters := project.config.filters
  let keep (e : SavedFilters.Edit) : ExceptT ProjectError m String := do
    let (outcome, after) := filters.perform e
    let text ← outcome
    Project.saveConfig ⟨project.workDirectory, ⟨project.config.model, after⟩⟩
    return text
  match c with
  | .add name text force => return "Saved @" ++ name ++ ": " ++ (← keep (.add name text force)) ++ "\n"
  | .remove name =>
    let _ ← keep (.remove name)
    return "Removed @" ++ name ++ "\n"
  | .list => return filters.listing coloured

/-- Marks a directory as a project, with a fresh configuration in it. -/
def mark (target model : String) : ExceptT ProjectError m Project := do
  let workDirectory := Path.join target Config.directoryName
  if (← Files.look (Path.join workDirectory Config.fileName)).exists then
    throw (.alreadyInitialized workDirectory)
  Project.makeDirectories workDirectory
  Project.saveConfig ⟨workDirectory, ⟨model, .empty⟩⟩
  return ⟨workDirectory, ← Project.loadConfig workDirectory⟩

/-- Reads the model of a new project, or makes an empty one where there is none. -/
def prepareModel (p : Project) : ExceptT ProjectError m String := do
  if (← Files.look p.modelPath).exists then
    let model ← Project.readModel p.modelPath
    return "Model: " ++ p.modelPath ++ " (" ++ toString model.issues.length ++ " issues)\n"
  else
    match Path.parent? p.modelPath with
    | some directory => Project.makeDirectories directory
    | none => pure ()
    p.saveModel .empty
    return "Created empty model at " ++ p.modelPath ++ "\n"

/-- Makes a project. The mark stays even if the model then turns out to be wrong. -/
def runInit (model : String) (path : Option String) : m Report := do
  let target ← match path with
    | some path => pure path
    | none => Files.here
  match ← (mark target model).run with
  | .error e => return ⟨"", some e⟩
  | .ok project =>
    let marked := "Initialized hubfilter at " ++ project.workDirectory ++ "\n"
    match ← (prepareModel project).run with
    | .ok prepared => return ⟨marked ++ prepared, none⟩
    | .error e => return ⟨marked, some e⟩

/-- The report of a command that prints nothing unless it succeeds. -/
def report (run : ExceptT ProjectError m String) : m Report := do
  match ← run.run with
  | .ok out => return ⟨out, none⟩
  | .error e => return ⟨"", some e⟩

/-- Runs a command at a time. -/
def run (now : Instant) (coloured : Bool) : Command → m Report
  | .list text format limit => report (runList now coloured text format limit)
  | .apply id text dryRun => report (runApply id text dryRun)
  | .check text => report (runCheck text)
  | .tokens text => report (runTokens text)
  | .saved c => report (runSaved coloured c)
  | .qualifiers => pure ⟨Help.qualifiers coloured, none⟩
  | .init model path => runInit model path
  | .completions _ => pure ⟨"", none⟩

end Command

end

end IssueQuery
