import ScriptTree.CommandLine.Usage
import ScriptTree.File.Store
import ScriptTree.Text.Quoted
import ScriptTree.Text.Similar

/-!
Parting the words of a command line into options and the others, and the errors that are shown
together with how the command is called. The program leaves this to click: here, and in the modules
on usage, requests and completion, stands what click does with the commands it is given.
-/

namespace ScriptTree.CommandLine

/-- Why a word is not taken as the value it should be. -/
inductive ValueFault where
  | noFile (path : String)
  | isDirectory (path : String)
  | notReadable (path : String)
  | notNumber (word : String)
  | tooSmall (n : Int) (least : Nat)
  /-- A null character, at which the program breaks off. -/
  | nullCharacter
  deriving DecidableEq, Repr

/-- The wording of a fault. -/
def ValueFault.message : ValueFault → String
  | .noFile path => s!"File {Text.quoted path} does not exist."
  | .isDirectory path => s!"File {Text.quoted path} is a directory."
  | .notReadable path => s!"File {Text.quoted path} is not readable."
  | .notNumber word => s!"{Text.quoted word} is not a valid integer range."
  | .tooSmall n least => s!"{n} is not in the range x>={least}."
  | .nullCharacter => FileFault.nullCharacter.message ""

/-- What is wrong with a command line. -/
inductive UsageFault where
  | commandMissing
  | unknownCommand (word : String)
  | unknownOption (name : String) (similar : List String)
  /-- The command line ends where the value of an option should be. -/
  | valueMissing (option : String)
  /-- An option that takes no value is given one. -/
  | valueUnwanted (option : String)
  | operandMissing (name : String)
  | badValue (name : String) (fault : ValueFault)
  | tooManyWords (words : List String)
  deriving DecidableEq, Repr

/-- What follows the name of an unknown option: the known ones it may stand for. -/
def suggestion : List String → String
  | [] => ""
  | [name] => s!" Did you mean {name}?"
  | names => " (Possible options: " ++ ", ".intercalate names ++ ")"

/-- The wording of a fault. -/
def UsageFault.message : UsageFault → String
  | .commandMissing => "Missing command."
  | .unknownCommand word => s!"No such command {Text.quoted word}."
  | .unknownOption name similar => s!"No such option: {name}{suggestion similar}"
  | .valueMissing option => s!"Option {Text.quoted option} requires an argument."
  | .valueUnwanted option => s!"Option {Text.quoted option} does not take a value."
  | .operandMissing name => s!"Missing argument '{name}'."
  | .badValue name fault => s!"Invalid value for '{name}': {fault.message}"
  | .tooManyWords words =>
    let noun := if words.length = 1 then "argument" else "arguments"
    s!"Got unexpected extra {noun} (" ++ " ".intercalate words ++ ")"

/-- Whether a fault is shown without the line on how the command is called: the two faults about
the value of an option are. -/
def UsageFault.isBare : UsageFault → Bool
  | .valueMissing _ => true
  | .valueUnwanted _ => true
  | _ => false

/-- A fault, and what was called. -/
structure UsageError where
  scope : Scope
  fault : UsageFault
  deriving DecidableEq, Repr

/-- The lines that report an error. -/
def UsageError.lines (e : UsageError) : List String :=
  let report := s!"Error: {e.fault.message}"
  if e.fault.isBare then [report]
  else [e.scope.usage, s!"Try '{e.scope.path} {helpSwitch.name}' for help.", "", report]

/-- The words of a command line: the options in their order, each with the value it is given, and
the other words. -/
structure Words where
  given : List (Switch × String)
  others : List String
  deriving DecidableEq, Repr

namespace Words

/-- Puts an option before the words. -/
def withOption (s : Switch) (value : String) (w : Words) : Words :=
  { w with given := (s, value) :: w.given }

/-- Puts a word that is no option before the words. -/
def withOther (word : String) (w : Words) : Words :=
  { w with others := word :: w.others }

/-- Whether an option is given. -/
def has (w : Words) (s : Switch) : Bool :=
  w.given.any (·.1 == s)

/-- The value of an option; of several the last counts. -/
def value? (w : Words) (s : Switch) : Option String :=
  (w.given.reverse.find? (·.1 == s)).map (·.2)

/-- Parts a word at its first equals sign. -/
def partValue (word : String) : String × Option String :=
  let cs := word.toList
  let name := String.ofList (cs.takeWhile (· != '='))
  match cs.dropWhile (· != '=') with
  | [] => (name, none)
  | _ :: value => (name, some (String.ofList value))

/-- The fault of an option with a name that is not known. Options have names with two dashes; of a
word with one dash the first letter is taken for the name. -/
def unknown (scope : Scope) (word name : String) : UsageFault :=
  if word.startsWith "--" then
    let similar := (scope.switches.map (·.name)).filter (Text.isSimilar · name)
    .unknownOption name (similar.mergeSort fun s t => !decide (t < s))
  else .unknownOption (String.ofList (word.toList.take 2)) []

/-- Whether a word is an option. -/
def isOption (word : String) : Bool :=
  word.startsWith "-" && word != "-"

/-- Parts the words. What follows two dashes alone is no option; the program itself takes no option
after the first other word. -/
def part (scope : Scope) : List String → Except UsageError Words
  | [] => .ok ⟨[], []⟩
  | word :: rest =>
    if word = "--" then .ok ⟨[], rest⟩
    else if isOption word then
      let (name, value) := partValue word
      match scope.switches.find? (·.name == name), value, rest with
      | none, _, _ => .error ⟨scope, unknown scope word name⟩
      | some s, none, next :: more =>
        if s.value.isSome then (part scope more).map (withOption s next)
        else (part scope (next :: more)).map (withOption s "")
      | some s, none, [] =>
        if s.value.isSome then .error ⟨scope, .valueMissing name⟩ else .ok ⟨[(s, "")], []⟩
      | some s, some value, rest =>
        if s.value.isSome then (part scope rest).map (withOption s value)
        else .error ⟨scope, .valueUnwanted name⟩
    else if scope = .program then .ok ⟨[], word :: rest⟩
    else (part scope rest).map (withOther word)

/-- The longest front of some words that can be parted, and whether it is all of them. -/
def partFront (scope : Scope) (words : List String) : Words × Bool :=
  let fronts := (List.range (words.length + 1)).filterMap fun n =>
    (part scope (words.take n)).toOption.map (·, n == words.length)
  fronts.getLast?.getD (⟨[], []⟩, false)

end Words
end ScriptTree.CommandLine
