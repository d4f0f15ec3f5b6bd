import ScriptTree.Text.Blank

/-!
The commands of the program, what each takes on its command line, and the help that tells so. The
commands are the program's own; the layout of the help stands for that of click.
-/

namespace ScriptTree.CommandLine

/-- The commands. -/
inductive Command where
  | analyze
  | locate
  | describe
  deriving DecidableEq, Repr

/-- An option: its name, how its value is shown if it takes one, its help, and what is said of the
values that it takes. -/
structure Switch where
  name : String
  value : Option String
  help : String
  limits : Option String
  deriving DecidableEq, Repr

/-- The name of the program. -/
def programName : String := "main"

/-- The version of the program. -/
def version : String := "0.3.0"

/-- What the program does. -/
def programSummary : String :=
  "Inspect the PowerShell abstract syntax tree of a script."

/-- Asks for help; every command and the program itself know it. -/
def helpSwitch : Switch where
  name := "--help"
  value := none
  help := "Show this message and exit."
  limits := none

/-- Asks for the version of the program. -/
def versionSwitch : Switch where
  name := "--version"
  value := none
  help := "Show the version and exit."
  limits := none

/-- Asks for JSON. -/
def jsonSwitch : Switch where
  name := "--json"
  value := none
  help := "Print the forest as JSON"
  limits := none

/-- Limits the depth of the nodes that are printed. -/
def depthSwitch : Switch where
  name := "--max-depth"
  value := some "INTEGER RANGE"
  help := "Only print nodes up to this depth (root is 0)"
  limits := some "x>=0"

/-- The options of the program itself. -/
def programSwitches : List Switch :=
  [versionSwitch, helpSwitch]

namespace Command

/-- All commands, in the order of their names. -/
def all : List Command :=
  [.analyze, .describe, .locate]

/-- The word that calls a command. -/
def name : Command → String
  | .analyze => "analyze"
  | .locate => "locate"
  | .describe => "describe"

/-- The command that a word calls. -/
def ofName? (word : String) : Option Command :=
  all.find? (·.name == word)

/-- What a command does. -/
def summary : Command → String
  | .analyze => "Print the AST of PATH."
  | .locate => "Print the innermost node of PATH enclosing LINE:COLUMN."
  | .describe => "Print the node at LINE:COLUMN with its properties and documentation."

/-- The names of the words that a command takes by their place. -/
def operands : Command → List String
  | .analyze => ["PATH"]
  | .locate => ["PATH", "LINE", "COLUMN"]
  | .describe => ["PATH", "LINE", "COLUMN"]

/-- The options of a command. -/
def switches : Command → List Switch
  | .analyze => [jsonSwitch, depthSwitch, helpSwitch]
  | .locate => [helpSwitch]
  | .describe => [helpSwitch]

end Command

/-- What is called: the program itself, or one of its commands. -/
inductive Scope where
  | program
  | command (c : Command)
  deriving DecidableEq, Repr

namespace Scope

/-- The words that call it. -/
def path : Scope → String
  | .program => programName
  | .command c => s!"{programName} {c.name}"

/-- What it does. -/
def summary : Scope → String
  | .program => programSummary
  | .command c => c.summary

/-- The options that it knows. -/
def switches : Scope → List Switch
  | .program => programSwitches
  | .command c => c.switches

/-- The words that follow the options. -/
def operands : Scope → List String
  | .program => ["COMMAND", "[ARGS]..."]
  | .command c => c.operands

/-- The line that shows how it is called. -/
def usage (s : Scope) : String :=
  " ".intercalate (["Usage:", s.path, "[OPTIONS]"] ++ s.operands)

end Scope

/-! ## Help -/

/-- The width of a page of help. -/
def pageWidth : Nat := 78

/-- Puts words on lines of at most `width` characters; `line` is the line begun. -/
def fillFrom (width : Nat) (line : List Char) : List (List Char) → List (List Char)
  | [] => [line]
  | word :: rest =>
    if line.length + 1 + word.length ≤ width then fillFrom width (line ++ ' ' :: word) rest
    else line :: fillFrom width word rest

/-- A text on lines of at most `width` characters. -/
def fill (width : Nat) (text : String) : List String :=
  match Text.words text.toList with
  | [] => []
  | word :: rest => (fillFrom width word rest).map String.ofList

/-- Spaces. -/
def spaces (n : Nat) : String :=
  String.ofList (List.replicate n ' ')

/-- The width of the first column of a table. -/
def firstColumn (rows : List (String × String)) : Nat :=
  rows.foldl (fun width row => max width row.1.length) 0

/-- The lines of a table with two columns. -/
def table (rows : List (String × String)) : List String :=
  let width := firstColumn rows + 2
  rows.flatMap fun row =>
    match fill (pageWidth - width - 2) row.2 with
    | [] => ["  " ++ row.1]
    | line :: more =>
      ("  " ++ row.1 ++ spaces (width - row.1.length) ++ line) ::
        more.map (spaces (width + 2) ++ ·)

/-- The leading words that fit within `width` characters, three dots included. -/
def leading (width : Nat) (words : List String) : String :=
  let fits := (List.range (words.length + 1)).filter fun n =>
    (" ".intercalate (words.take n)).length + 3 ≤ width
  " ".intercalate (words.take (fits.getLast?.getD 0)) ++ "..."

/-- A text, cut between words if it is longer than `width`. -/
def shortened (width : Nat) (text : String) : String :=
  if text.length ≤ width then text
  else leading width ((Text.words text.toList).map String.ofList)

/-- How an option is shown in a table. -/
def Switch.row (s : Switch) : String × String :=
  (s.name ++ (s.value.map (" " ++ ·)).getD "",
    s.help ++ (s.limits.map fun limits => s!"  [{limits}]").getD "")

/-- The rows of the commands. -/
def commandRows : List (String × String) :=
  let width := firstColumn (Command.all.map fun c => (c.name, ""))
  Command.all.map fun c => (c.name, shortened (pageWidth - 6 - width) c.summary)

/-- The lines of the help. -/
def Scope.help (s : Scope) : List String :=
  let commands := match s with
    | .program => ["", "Commands:"] ++ table commandRows
    | .command _ => []
  [s.usage, "", "  " ++ s.summary, "", "Options:"] ++ table (s.switches.map Switch.row) ++ commands

end ScriptTree.CommandLine
