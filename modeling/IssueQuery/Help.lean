/-
Help texts: the overview of commands, how to begin, the notation of filters, and the qualifiers.
-/
import IssueQuery.Colour
import IssueQuery.Qualifier.Kind
import IssueQuery.Text.Numeral

namespace IssueQuery.Help

/-- The order of the parts of the help on the program. -/
def template : String :=
  "\x7babout-with-newline\x7d\n\x7busage-heading\x7d \x7busage\x7d\n\n\x7bbefore-help\x7d" ++
    Colour.header "Options:" ++ "\n\x7boptions\x7d\x7bafter-help\x7d"

/-- A line of the overview: a command, blanks, and what it does. -/
def commandLine (command gap purpose : String) : String :=
  "  " ++ Colour.literal command ++ gap ++ purpose ++ "\n"

/-- The commands and what they do. -/
def commands : String :=
  Colour.header "Filters:" ++ "\n" ++
    commandLine "list" "         " "List issues matching a filter" ++
    commandLine "apply" "        " "Change an issue so it matches a filter" ++
    commandLine "check" "        " "Validate a filter and print its canonical form" ++
    commandLine "tokens" "       " "Show how a filter is tokenized" ++
    commandLine "saved" "        " "Manage saved filters" ++
    commandLine "qualifiers" "   " "Show recognised qualifiers" ++
    "\n" ++ Colour.header "Setup:" ++ "\n" ++
    commandLine "init" "         " "Initialize a project" ++
    commandLine "completions" "  " "Generate shell completions"

/-- How to begin. -/
def quickstart (coloured : Bool) : String :=
  Colour.examples coloured <| "\n".intercalate
    ["Get started:",
      "  hf init                           Initialize with ./model.json",
      "  hf list \"is:open label:bug\"       List open bugs",
      "  hf apply \"milestone:v1.0\" 12      Move issue #12 to milestone v1.0",
      "  hf saved add mine assignee:alice  Save a filter, then use it as @mine"]

/-- The notation of filters. -/
def filterNotation (coloured : Bool) : String :=
  Colour.examples coloured <| "\n".intercalate
    ["Filter syntax:",
      "  Terms: word  \"quoted words\"  qualifier:value",
      "  Operators: AND, OR, NOT (or !, ~, -)  and parentheses",
      "  Ranges: created:2020-01-01..2020-06-30  comments:>5  id:<=10",
      "  Alternatives: label:bug;crash",
      "  Meta: in:title  sort:~updated,id",
      "  Saved: @name expands a saved filter"]

/-- A kind of qualifier: its name and what it may be given, then its other names. -/
def qualifierLines (coloured : Bool) (k : Qualifier.Kind) : String :=
  let name := Text.padRight 12 (k.name ++ ":")
  let first := Colour.painted coloured Colour.literal name ++ k.inputs ++ "\n"
  if k.aliases.isEmpty then first
  else
    first ++ Text.padRight 12 "" ++
      Colour.painted coloured Colour.context ("also: " ++ ", ".intercalate k.aliases) ++ "\n"

/-- All kinds of qualifier. -/
def qualifiers (coloured : Bool) : String :=
  String.join (Qualifier.Kind.named.map (qualifierLines coloured))

end IssueQuery.Help
