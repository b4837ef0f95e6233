/-
Arguments on a command line: options, which begin with hyphens, and words. They are read from left to
right, and the first that is wrong, or that asks for help, decides.
-/

namespace IssueQuery.Arguments

/-- Why arguments make no command. -/
inductive Refusal
  | wrong
  | help
  | version
  deriving DecidableEq, Repr

/-- What an option is for. -/
inductive Purpose
  | switch
  | value (accepts : String → Bool)
  | help
  | version

/-- An option, by its long name and its letters. -/
structure Opt where
  name : String
  letters : List Char
  purpose : Purpose

/-- The options of a command, and which word it accepts as the first, the second, and so on. -/
structure Form where
  options : List Opt
  word : Nat → Option (String → Bool)

/-- The arguments that have been read: options with their values, and words. -/
structure Given where
  options : List (String × String)
  words : List String
  deriving DecidableEq, Repr

namespace Given

def empty : Given := ⟨[], []⟩

/-- The value of an option. -/
def value? (g : Given) (name : String) : Option String := g.options.lookup name

def has (g : Given) (name : String) : Bool := (g.value? name).isSome

/-- Adds an option. None can be given twice. -/
def addOption (g : Given) (name value : String) : Except Refusal Given :=
  if g.has name then .error .wrong else .ok ⟨g.options ++ [(name, value)], g.words⟩

/-- Adds an option with a value that it must accept. -/
def addValue (g : Given) (name value : String) (accepts : String → Bool) : Except Refusal Given :=
  if accepts value then g.addOption name value else .error .wrong

/-- Adds a word, if the command takes it. -/
def addWord (f : Form) (g : Given) (word : String) : Except Refusal Given :=
  match f.word g.words.length with
  | some accepts => if accepts word then .ok ⟨g.options, g.words ++ [word]⟩ else .error .wrong
  | none => .error .wrong

end Given

/-! ## Options -/

/-- Whether an argument is an option; a single hyphen is a word. -/
def isOption (arg : String) : Bool := arg.startsWith "-" && arg != "-"

/-- What an option adds, and whether it still needs a value. -/
inductive Step
  | done (g : Given)
  | needsValue (g : Given) (name : String) (accepts : String → Bool)

/-- The value that follows a letter in the same argument; an equals sign may come before it. -/
def attached : List Char → String
  | '=' :: cs => String.ofList cs
  | cs => String.ofList cs

/-- The letters after a single hyphen. A letter with a value takes up the rest. -/
def readLetters (f : Form) (g : Given) : List Char → Except Refusal Step
  | [] => .ok (.done g)
  | c :: cs =>
    match f.options.find? (·.letters.contains c) with
    | none => .error .wrong
    | some o =>
      match o.purpose with
      | .help => .error .help
      | .version => .error .version
      | .switch => do readLetters f (← g.addOption o.name "") cs
      | .value accepts =>
        if cs.isEmpty then .ok (.needsValue g o.name accepts)
        else (g.addValue o.name (attached cs) accepts).map .done

/-- A long name after two hyphens, perhaps with an equals sign and a value. -/
def readName (f : Form) (g : Given) (cs : List Char) : Except Refusal Step :=
  let name := cs.takeWhile (· != '=')
  match f.options.find? (·.name == String.ofList name), cs.drop name.length with
  | none, _ => .error .wrong
  | some o, [] =>
    match o.purpose with
    | .help => .error .help
    | .version => .error .version
    | .switch => (g.addOption o.name "").map .done
    | .value accepts => .ok (.needsValue g o.name accepts)
  | some o, _ :: value =>
    match o.purpose with
    | .value accepts => (g.addValue o.name (String.ofList value) accepts).map .done
    | _ => .error .wrong

/-- An argument that is an option. -/
def readOption (f : Form) (g : Given) (arg : String) : Except Refusal Step :=
  match arg.toList with
  | '-' :: '-' :: cs => readName f g cs
  | '-' :: cs => readLetters f g cs
  | _ => .error .wrong

/-! ## Lines -/

/-- The arguments of a command. After two hyphens alone all are words. -/
def read (f : Form) (g : Given) : List String → Except Refusal Given
  | [] => .ok g
  | arg :: args =>
    if arg = "--" then args.foldlM (Given.addWord f) g
    else if isOption arg then do
      match ← readOption f g arg with
      | .done g => read f g args
      | .needsValue g name accepts =>
        match args with
        | value :: args =>
          if isOption value then throw .wrong else read f (← g.addValue name value accepts) args
        | [] => throw .wrong
    else do read f (← g.addWord f arg) args

/-- The options before the first word, that word, and the arguments after it. -/
def readToWord (f : Form) (g : Given) : List String → Except Refusal (Given × String × List String)
  | [] => .error .wrong
  | arg :: args =>
    if arg = "--" then .error .wrong
    else if isOption arg then do
      match ← readOption f g arg with
      | .done g => readToWord f g args
      | .needsValue g name accepts =>
        match args with
        | value :: args =>
          if isOption value then throw .wrong else readToWord f (← g.addValue name value accepts) args
        | [] => throw .wrong
    else .ok (g, arg, args)

end IssueQuery.Arguments
