/-
The program: a command line, the files of the machine, its clock, and what is printed.
-/
import IssueQuery.Calendar.Notation
import IssueQuery.Command.Reader
import IssueQuery.Command.Run
import Std.Time.Date.PlainDate
import Std.Time.DateTime.Timestamp

namespace IssueQuery.Program

/-! ## The machine -/

/-- Actions on the files of the machine, whose current directory is given. -/
abbrev OnDisk := ReaderT String IO

/-- What stands at a path of the machine. A file that cannot be read has no text. -/
def entryAt (path : String) : IO Entry := do
  try
    let place ← IO.FS.realPath path
    if ← place.isDir then return .directory
    if !(← place.pathExists) then return .missing
    match (← (IO.FS.readBinFile place).toBaseIO) with
    | .ok bytes => return ((String.fromUTF8? bytes).map .file).getD .garbled
    | .error _ => return .garbled
  catch _ => return .missing

/-- Whether an action ends without an error. -/
def succeeds (act : IO Unit) : IO Bool := do
  match ← act.toBaseIO with
  | .ok _ => return true
  | .error _ => return false

instance : Files OnDisk where
  here := read
  look path := do entryAt (Path.join (← read) path)
  write path text := do succeeds (IO.FS.writeFile (Path.join (← read) path) text)
  makeDirectories path := do succeeds (IO.FS.createDirAll (Path.join (← read) path))

/-- The time on the clock of the machine. -/
def clock : IO Instant := do
  let t ← Std.Time.Timestamp.now
  let day := Std.Time.PlainDate.ofEpochDay t.toDaysSinceUnixEpoch
  let instant := do
    let date ← Date.ofNumbers? day.year.toInt day.month.val.toNat day.day.val.toNat
    Instant.ofParts? date (t.toSecondsSinceUnixEpoch.val % 86400).toNat t.val.nano.val.toNat
  match instant with
  | some i => return i
  | none => throw (IO.userError "the clock shows no date of the calendar")

/-- Whether colours are asked for, in the environment or by printing to a terminal. -/
def wantsColour : IO Bool := do
  let terminal ← (← IO.getStdout).isTty
  let choice := ColourChoice.ofVariables (← IO.getEnv "NO_COLOR") (← IO.getEnv "COLOR") terminal
  return choice.isWanted

/-! ## Running -/

def version : String := "hf 0.1.0"

/-- The help on the program. -/
def helpText (coloured : Bool) : String :=
  "Query and reshape issues with a GitHub-style filter language\n\n" ++ Help.commands ++ "\n" ++
    Help.quickstart coloured ++ "\n\n" ++ Help.filterNotation coloured ++ "\n"

/-- Prints an error and gives the code of a failed run. -/
def fail (message : String) (code : UInt32) : IO UInt32 := do
  IO.eprintln ("error: " ++ message)
  return code

/-- The directory that a command runs in, if it is there. -/
def directoryOf (i : Command.Invocation) : IO (Option String) := do
  let here := (← IO.currentDir).toString
  match i.directory with
  | none => return some here
  | some path =>
    let place := Path.join here path
    if (← entryAt place) == .directory then return some (← IO.FS.realPath place).toString
    return none

/-- Runs what the arguments ask for. -/
def runArguments (args : List String) : IO UInt32 := do
  match Command.ofArguments args with
  | .error .help => IO.print (helpText (← wantsColour)); return 0
  | .error .version => IO.println version; return 0
  | .error .wrong => fail "invalid arguments: run 'hf --help' for help" 2
  | .ok i =>
    match ← directoryOf i with
    | none => fail ("cannot change to directory '" ++ i.directory.getD "" ++ "'") 1
    | some here =>
      let report ← (Command.run (← clock) (← wantsColour) i.command : OnDisk Report).run here
      IO.print report.out
      match report.error with
      | none => return 0
      | some e => fail e.message 1

end IssueQuery.Program

def main (args : List String) : IO UInt32 := IssueQuery.Program.runArguments args
