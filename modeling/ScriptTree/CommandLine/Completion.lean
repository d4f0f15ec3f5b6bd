import ScriptTree.CommandLine.Quoting
import ScriptTree.CommandLine.Words
import ScriptTree.Config.Environment
import ScriptTree.Number.Integer

/-!
Completion of command lines in a shell. The shell sets a variable that names it and what it wants:
the script that makes it ask for completions, or the completions of the line that is being typed. It
comes with click, which every command of the program goes through before its own work begins.
-/

namespace ScriptTree.CommandLine

/-- The shells that complete command lines. -/
inductive CompletingShell where
  | bash
  | fish
  | zsh
  deriving DecidableEq, Repr

/-- The name of a shell. -/
def CompletingShell.name : CompletingShell → String
  | .bash => "bash"
  | .fish => "fish"
  | .zsh => "zsh"

/-- The shell with a name. -/
def CompletingShell.ofName? (name : String) : Option CompletingShell :=
  [CompletingShell.bash, .fish, .zsh].find? (·.name == name)

/-- Why a line is not completed: a variable is missing, or the place of the word is no number. -/
inductive CompletionFault where
  | variableMissing (name : String)
  | badPlace (given : String) (fault : Integer.Fault)
  deriving DecidableEq, Repr

/-- The kind of a fault. -/
def CompletionFault.kind : CompletionFault → String
  | .variableMissing _ => "KeyError"
  | .badPlace _ _ => "ValueError"

/-- The wording of a fault. -/
def CompletionFault.message : CompletionFault → String
  | .variableMissing name => Text.quoted name
  | .badPlace given fault => fault.message given

/-- A completion: what it is, the word, and its help if it has some. -/
structure Completion where
  kind : String
  word : String
  help : Option String
  deriving DecidableEq, Repr

namespace Completion

/-! ## The completions of a word -/

/-- The width to which the help of a command is cut. -/
def helpWidth : Nat := 45

/-- Whether a word begins like an option. -/
def looksLikeOption (word : String) : Bool :=
  word.startsWith "-"

/-- The names of the commands that begin with a text. -/
def ofCommands (front : String) : List Completion :=
  (Command.all.filter (·.name.startsWith front)).map fun c =>
    ⟨"plain", c.name, some (shortened helpWidth c.summary)⟩

/-- The options that begin with a text and are not yet given. -/
def ofSwitches (scope : Scope) (given : List Switch) (front : String) : List Completion :=
  let fitting := scope.switches.filter fun s => s.name.startsWith front && !given.contains s
  if front.isEmpty then [] else fitting.map fun s => ⟨"plain", s.name, some s.help⟩

/-- The completions of a word after what is called itself. -/
def ofScope (scope : Scope) (given : List Switch) (front : String) : List Completion :=
  match scope with
  | .program => ofCommands front ++ ofSwitches scope given front
  | .command _ => ofSwitches scope given front

/-- The completions of the word for an operand: a path is completed by the shell. -/
def ofOperand (name front : String) : List Completion :=
  if name = "PATH" then [⟨"file", front, none⟩] else []

/-- What some words call, and the words after it parted as far as they can be. -/
def called (words : List String) : Scope × Words × Bool :=
  let (w, isWhole) := Words.partFront .program words
  match isWhole, w.others with
  | true, word :: rest =>
    match Command.ofName? word with
    | some c => (.command c, Words.partFront (.command c) rest)
    | none => (.program, w, isWhole)
  | _, _ => (.program, w, isWhole)

/-- The operands of a command for which there is no word yet. -/
def openOperands (scope : Scope) (w : Words) (isWhole : Bool) : List String :=
  match scope with
  | .program => []
  | .command c => c.operands.drop (if isWhole then w.others.length else 0)

/-- Whether the last word is an option that waits for its value. -/
def waitsForValue (scope : Scope) (words : List String) : Bool :=
  words.getLast?.any fun last => scope.switches.any fun s => s.name == last && s.value.isSome

/-- The completions of the text `front` after some words. -/
def ofWords (words : List String) (front : String) : List Completion :=
  let (scope, w, isWhole) := called words
  let given := w.given.map Prod.fst
  let (words, front) :=
    if front = "=" then (words, "")
    else if looksLikeOption front then
      match Words.partValue front with
      | (name, some value) => (words ++ [name], value)
      | (_, none) => (words, front)
    else (words, front)
  if !words.contains "--" && looksLikeOption front then ofScope scope given front
  else if waitsForValue scope words then []
  else
    match openOperands scope w isWhole with
    | name :: _ => ofOperand name front
    | [] => ofScope scope given front

/-! ## Talking to a shell -/

/-- The variable by which a shell asks. -/
def variableName : String := "_MAIN_COMPLETE"

/-- The value of a variable that must be set. -/
def valueOf (e : Environment) (name : String) : Except CompletionFault String :=
  match e.get? name with
  | some value => .ok value
  | none => .error (.variableMissing name)

/-- The place in a list that a number means; a number below zero counts from the end. -/
def placeIn {α : Type} (xs : List α) (n : Int) : Int :=
  if n < 0 then n + xs.length else n

/-- The words before the one to complete, and its beginning. Some shells give the number of the
word, others the word itself, which is then the last word of the line too. -/
def lineOf (e : Environment) (shell : CompletingShell) :
    Except CompletionFault (List String × String) := do
  let words := splitWords (← valueOf e "COMP_WORDS")
  let given ← valueOf e "COMP_CWORD"
  match shell with
  | .fish =>
    let before := words.drop 1
    let isLast := !given.isEmpty && before.getLast? == some given
    pure (if isLast then before.dropLast else before, given)
  | _ =>
    match Integer.read given with
    | .error fault => throw (.badPlace given fault)
    | .ok n =>
      let place := placeIn words n
      let front := if place < 0 then "" else words.getD place.toNat ""
      pure ((words.take place.toNat).drop 1, front)

/-- A completion as a shell reads it. -/
def text (shell : CompletingShell) (c : Completion) : String :=
  match shell, c.help with
  | .bash, _ => s!"{c.kind},{c.word}"
  | .zsh, help =>
    let help := help.getD "_"
    s!"{c.kind}\n{c.word}\n{help}"
  | .fish, some help => s!"{c.kind},{c.word}\t{help}"
  | .fish, none => s!"{c.kind},{c.word}"

/-- The completions that a shell asks for. -/
def listing (e : Environment) (shell : CompletingShell) : Except CompletionFault String := do
  let (words, front) ← lineOf e shell
  pure ("\n".intercalate ((ofWords words front).map (text shell)))

/-! ## Scripts -/

/-- The name of the function that a script defines. -/
def functionName : String := s!"_{programName}_completion"

/-- The script for bash. -/
def bashScript : List String :=
  [functionName ++ "() \x7b",
   "    local IFS=$'\\n'",
   "    local response",
   "",
   "    response=$(env COMP_WORDS=\"$\x7bCOMP_WORDS[*]\x7d\" COMP_CWORD=$COMP_CWORD " ++
     variableName ++ "=bash_complete $1)",
   "",
   "    for completion in $response; do",
   "        IFS=',' read type value <<< \"$completion\"",
   "",
   "        if [[ $type == 'dir' ]]; then",
   "            COMPREPLY=()",
   "            compopt -o dirnames",
   "        elif [[ $type == 'file' ]]; then",
   "            COMPREPLY=()",
   "            compopt -o default",
   "        elif [[ $type == 'plain' ]]; then",
   "            COMPREPLY+=($value)",
   "        fi",
   "    done",
   "",
   "    return 0",
   "\x7d",
   "",
   functionName ++ "_setup() \x7b",
   "    complete -o nosort -F " ++ functionName ++ " " ++ programName,
   "\x7d",
   "",
   functionName ++ "_setup;"]

/-- The script for zsh. -/
def zshScript : List String :=
  ["#compdef " ++ programName,
   "",
   functionName ++ "() \x7b",
   "    local -a completions",
   "    local -a completions_with_descriptions",
   "    local -a response",
   "    (( ! $+commands[" ++ programName ++ "] )) && return 1",
   "",
   "    response=(\"$\x7b(@f)$(env COMP_WORDS=\"$\x7bwords[*]\x7d\" COMP_CWORD=$((CURRENT-1)) " ++
     variableName ++ "=zsh_complete " ++ programName ++ ")\x7d\")",
   "",
   "    for type key descr in $\x7bresponse\x7d; do",
   "        if [[ \"$type\" == \"plain\" ]]; then",
   "            if [[ \"$descr\" == \"_\" ]]; then",
   "                completions+=(\"$key\")",
   "            else",
   "                completions_with_descriptions+=(\"$key\":\"$descr\")",
   "            fi",
   "        elif [[ \"$type\" == \"dir\" ]]; then",
   "            _path_files -/",
   "        elif [[ \"$type\" == \"file\" ]]; then",
   "            _path_files -f",
   "        fi",
   "    done",
   "",
   "    if [ -n \"$completions_with_descriptions\" ]; then",
   "        _describe -V unsorted completions_with_descriptions -U",
   "    fi",
   "",
   "    if [ -n \"$completions\" ]; then",
   "        compadd -U -V unsorted -a completions",
   "    fi",
   "\x7d",
   "",
   "if [[ $zsh_eval_context[-1] == loadautofunc ]]; then",
   "    # autoload from fpath, call function directly",
   "    " ++ functionName ++ " \"$@\"",
   "else",
   "    # eval/source/. command, register function for later",
   "    compdef " ++ functionName ++ " " ++ programName,
   "fi"]

/-- The script for fish. -/
def fishScript : List String :=
  ["function " ++ functionName ++ ";",
   "    set -l response (env " ++ variableName ++ "=fish_complete COMP_WORDS=(commandline -cp) " ++
     "COMP_CWORD=(commandline -t) " ++ programName ++ ");",
   "",
   "    for completion in $response;",
   "        set -l metadata (string split \",\" $completion);",
   "",
   "        if test $metadata[1] = \"dir\";",
   "            __fish_complete_directories $metadata[2];",
   "        else if test $metadata[1] = \"file\";",
   "            __fish_complete_path $metadata[2];",
   "        else if test $metadata[1] = \"plain\";",
   "            echo $metadata[2];",
   "        end;",
   "    end;",
   "end;",
   "",
   "complete --no-files --command " ++ programName ++ " --arguments " ++
     "\"(" ++ functionName ++ ")\";"]

/-- The script that makes a shell ask for completions. -/
def script : CompletingShell → String
  | .bash => String.join (bashScript.map (· ++ "\n"))
  | .fish => String.join (fishScript.map (· ++ "\n"))
  | .zsh => String.join (zshScript.map (· ++ "\n"))

/-- The answer to what a shell asks: the name of the shell, an underscore, and what it wants. There
is none for other shells and other wishes. -/
def answer (e : Environment) (instruction : String) : Option (Except CompletionFault String) :=
  let cs := instruction.toList
  let name := String.ofList (cs.takeWhile (· != '_'))
  let wish := String.ofList ((cs.dropWhile (· != '_')).drop 1)
  match CompletingShell.ofName? name with
  | none => none
  | some shell =>
    if wish = "source" then some (.ok (script shell))
    else if wish = "complete" then some (listing e shell)
    else none

end Completion
end ScriptTree.CommandLine
