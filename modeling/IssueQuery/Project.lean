/-
Projects. A project is a directory marked by another one in it, which holds the configuration; it is
looked for from the current directory outwards.
-/
import IssueQuery.Files
import IssueQuery.Model.Storage
import IssueQuery.Project.Config

namespace IssueQuery

/-- A project: the directory that marks it, and its configuration. -/
structure Project where
  workDirectory : String
  config : Config
  deriving DecidableEq

namespace Project

section
variable {m : Type → Type} [Monad m] [Files m]

/-! ## Finding a project -/

/-- The innermost of the directories that is marked as a project. -/
def findIn : List String → ExceptT ProjectError m String
  | [] => throw .notInitialized
  | directory :: around => do
    let workDirectory := Path.join directory Config.directoryName
    match ← Files.look workDirectory with
    | .directory => return workDirectory
    | _ => findIn around

/-- The configuration kept in a marking directory. -/
def loadConfig (workDirectory : String) : ExceptT ProjectError m Config := do
  match ← Files.look (Path.join workDirectory Config.fileName) with
  | .file text =>
    match Config.ofText? text with
    | some c => return c
    | none => throw .badConfig
  | _ => throw .badConfig

/-- The project around the current directory. -/
def openHere : ExceptT ProjectError m Project := do
  let workDirectory ← findIn (Path.ancestors (← Files.here))
  return ⟨workDirectory, ← loadConfig workDirectory⟩

/-! ## Files of a project -/

/-- Writes a file, or fails. -/
def writeFile (path text : String) : ExceptT ProjectError m Unit := do
  if !(← Files.write path text) then throw .badFile

def makeDirectories (path : String) : ExceptT ProjectError m Unit := do
  if !(← Files.makeDirectories path) then throw .badFile

def saveConfig (p : Project) : ExceptT ProjectError m Unit :=
  writeFile (Path.join p.workDirectory Config.fileName) p.config.text

def modelPath (p : Project) : String := p.config.modelPath p.workDirectory

/-- The model in a file that is there. -/
def readModel (path : String) : ExceptT ProjectError m Model := do
  match ← Files.look path with
  | .file text =>
    match Model.ofText? text with
    | some model => return model
    | none => throw .badModel
  | _ => throw .badModel

def loadModel (p : Project) : ExceptT ProjectError m Model := do
  if !(← Files.look p.modelPath).exists then throw (.modelNotFound p.modelPath)
  readModel p.modelPath

def saveModel (p : Project) (model : Model) : ExceptT ProjectError m Unit :=
  writeFile p.modelPath model.text

end

end Project

end IssueQuery
