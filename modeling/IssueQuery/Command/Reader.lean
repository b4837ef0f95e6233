/-
The command that a command line asks for.
-/
import IssueQuery.Command
import IssueQuery.Command.Arguments

namespace IssueQuery.Command

open Arguments

/-! ## Options and words -/

def anyText (_ : String) : Bool := true

def helpOption : Opt := ⟨"help", ['h'], .help⟩

/-- The directory to work in; every command takes it. -/
def directoryOption : Opt := ⟨"directory", ['C'], .value anyText⟩

def versionOption : Opt := ⟨"version", ['v', 'V'], .version⟩

def formats : List (String × OutputFormat) := [("text", .text), ("json", .json), ("id", .id), ("ids", .id)]

def outputOption : Opt := ⟨"output", ['o'], .value fun s => (formats.lookup s).isSome⟩

def limitOption : Opt := ⟨"limit", ['n'], .value fun s => (Text.uint64? s).isSome⟩

/-- The number of an issue; a sign may stand before it. -/
def issueNumber? (s : String) : Option UInt32 :=
  (Text.int64? s).bind fun n => if 0 ≤ n then Text.word32OfNat? n.toNat else none

def shells : List String := ["bash", "elvish", "fish", "powershell", "zsh"]

/-- A form with options of its own, besides those of every command. -/
def form (options : List Opt) (word : Nat → Option (String → Bool)) : Form :=
  ⟨options ++ [helpOption, directoryOption], word⟩

/-- Takes the words that the given ones accept, and no more. -/
def exactly (words : List (String → Bool)) (i : Nat) : Option (String → Bool) := words[i]?

/-- Takes the words that the given ones accept, and any after them. -/
def atLeast (words : List (String → Bool)) (i : Nat) : Option (String → Bool) :=
  some (words[i]?.getD anyText)

/-- The words of a filter, a blank apart. -/
def joined (words : List String) : String := " ".intercalate words

/-! ## Commands -/

/-- A command, and the directory to run it in if the arguments name one. -/
structure Invocation where
  directory : Option String
  command : Command
  deriving DecidableEq, Repr

/-- The directory that options name; if they name none, the one named before them. -/
def directoryIn (g : Given) (before : Option String) : Option String :=
  (g.value? directoryOption.name).or before

def readSaved (before : Option String) (args : List String) : Except Refusal Invocation := do
  let (g, word, args) ← readToWord (form [] (exactly [])) .empty args
  let before := directoryIn g before
  match word with
  | "add" =>
    let g ← read (form [⟨"force", ['f'], .switch⟩] (atLeast [anyText])) .empty args
    match g.words with
    | name :: filter =>
      return ⟨directoryIn g before, .saved (.add name (joined filter) (g.has "force"))⟩
    | [] => throw .wrong
  | "remove" | "rm" =>
    let g ← read (form [] (exactly [anyText])) .empty args
    match g.words with
    | [name] => return ⟨directoryIn g before, .saved (.remove name)⟩
    | _ => throw .wrong
  | "list" | "ls" =>
    let g ← read (form [] (exactly [])) .empty args
    return ⟨directoryIn g before, .saved .list⟩
  | "help" =>
    match args with
    | [] | ["add"] | ["remove"] | ["rm"] | ["list"] | ["ls"] | ["help"] => throw .help
    | _ => throw .wrong
  | _ => throw .wrong

/-- Whether there is help on the words. -/
def hasHelp : List String → Bool
  | [] | ["list"] | ["apply"] | ["check"] | ["tokens"] | ["saved"] | ["qualifiers"] | ["init"]
  | ["completions"] | ["help"] => true
  | ["saved", word] => ["add", "remove", "rm", "list", "ls", "help"].contains word
  | _ => false

/-- The command that the arguments ask for. -/
def ofArguments (args : List String) : Except Refusal Invocation := do
  let (g, word, args) ← readToWord (form [versionOption] (exactly [])) .empty args
  let before := directoryIn g none
  match word with
  | "list" =>
    let g ← read (form [outputOption, limitOption] (atLeast [])) .empty args
    let format := ((g.value? "output").bind fun s => formats.lookup s).getD .text
    let limit := (g.value? "limit").bind Text.uint64?
    return ⟨directoryIn g before, .list (joined g.words) format limit⟩
  | "apply" =>
    let g ← read (form [⟨"dry-run", [], .switch⟩] (atLeast [fun s => (issueNumber? s).isSome])) .empty args
    match g.words with
    | number :: filter =>
      match issueNumber? number with
      | some id => return ⟨directoryIn g before, .apply id (joined filter) (g.has "dry-run")⟩
      | none => throw .wrong
    | [] => throw .wrong
  | "check" =>
    let g ← read (form [] (atLeast [])) .empty args
    return ⟨directoryIn g before, .check (joined g.words)⟩
  | "tokens" =>
    let g ← read (form [] (atLeast [])) .empty args
    return ⟨directoryIn g before, .tokens (joined g.words)⟩
  | "saved" => readSaved before args
  | "qualifiers" =>
    let g ← read (form [] (exactly [])) .empty args
    return ⟨directoryIn g before, .qualifiers⟩
  | "init" =>
    let g ← read (form [⟨"model", [], .value anyText⟩, ⟨"path", [], .value anyText⟩] (exactly []))
      .empty args
    return ⟨directoryIn g before, .init ((g.value? "model").getD "model.json") (g.value? "path")⟩
  | "completions" =>
    let g ← read (form [] (exactly [shells.contains])) .empty args
    match g.words with
    | [shell] => return ⟨directoryIn g before, .completions shell⟩
    | _ => throw .wrong
  | "help" => throw (if hasHelp args then .help else .wrong)
  | _ => throw .wrong

end IssueQuery.Command
