import ScriptTree.Shell.Builtin
import ScriptTree.Shell.Glob

/-!
Expansion of words as far as no command is run for it: tildes, parameters, and the names of files.
-/

namespace ScriptTree.Shell

/-- How a part of a word is expanded: between double quotes or not, and with or without parting what
comes of it into fields. -/
structure Manner where
  inDouble : Bool
  isParted : Bool
  deriving DecidableEq, Repr

namespace Manner

/-- Words of a command are parted into fields. -/
def fields : Manner := ⟨false, true⟩

/-- Values, patterns and names of files stay whole. -/
def whole : Manner := ⟨false, false⟩

/-- Documents and arithmetic stay whole as if between double quotes. -/
def text : Manner := ⟨true, false⟩

end Manner

/-! ## Tildes -/

/-- The parts of text without quotes, in which a tilde at the start stands for a home; in a value one
after a colon does so too. The name after it must end in this text, unless the word ends with it. -/
def tildeParts (isValue isLast : Bool) : Nat → Bool → Bytes → List Part
  | 0, _, cs => [.plain cs]
  | fuel + 1, mayStart, cs =>
    if cs.isEmpty then []
    else if mayStart && cs.head? = some '~' then
      let user := (cs.drop 1).takeWhile fun c => c != '/' && !(isValue && c = ':')
      let rest := cs.drop (user.length + 1)
      if rest.isEmpty && !isLast then [.plain cs]
      else .home user :: tildeParts isValue isLast fuel false rest
    else
      let before := cs.takeWhile (· != ':')
      match isValue, cs.drop before.length with
      | true, ':' :: rest => .plain (before ++ [':']) :: tildeParts isValue isLast fuel true rest
      | _, _ => [.plain cs]

/-- The parts of a word from which homes are taken: at its start, and in a value after colons. -/
def withHomes (isValue : Bool) : Bool → List Part → List Part
  | _, [] => []
  | mayStart, .plain text :: parts =>
    tildeParts isValue parts.isEmpty (text.length + 1) mayStart text ++
      withHomes isValue false parts
  | _, part :: parts => part :: withHomes isValue false parts

/-- The name before the equals sign of a word that is an assignment, and the parts of the value. -/
def assignmentOf? (word : List Part) : Option (Bytes × List Part) :=
  match word with
  | .plain text :: parts =>
    let name := (nameAt? text).getD []
    match name, text.drop name.length with
    | _ :: _, '=' :: rest =>
      some (name ++ ['='], if rest.isEmpty then parts else .plain rest :: parts)
    | _, _ => none
  | _ => none

/-- The commands whose words may be assignments: they are no fields then. -/
def assigningNames : List Bytes :=
  ["alias", "export", "local", "readonly"].map bytesOf

/-! ## Parameters -/

/-- The bytes of a value as glyphs. -/
def glyphsOf (inDouble : Bool) (cs : Bytes) : List Glyph :=
  cs.map (if inDouble then .quoted else .expanded)

/-- Whether a name stands for all arguments, each of which is kept on its own where fields are parted;
without separators that are set it is so between quotes only. -/
def State.keepsArguments (s : State) (m : Manner) (name : Bytes) : Bool :=
  m.isParted &&
    (name = ['@'] && m.inDouble ||
      (name = ['@'] || name = ['*']) && !m.inDouble && (s.value? (bytesOf "IFS")).isSome)

/-- Arguments, each on its own. -/
def argumentGlyphs (m : Manner) (arguments : List Bytes) : List Glyph :=
  let each (cs : Bytes) : List Glyph :=
    (if m.inDouble then [.quotes] else []) ++ glyphsOf m.inDouble cs
  List.intercalate [.boundary] (arguments.map each)

/-- What a pattern takes away. -/
inductive Cut where
  | start (longest : Bool)
  | ending (longest : Bool)
  deriving DecidableEq, Repr

/-- A text without what a pattern takes away. -/
def Cut.apply (cut : Cut) (steps : List PatternStep) (text : Bytes) : Bytes :=
  match cut with
  | .start longest => dropStart steps longest text
  | .ending longest => dropEnd steps longest text

/-- Arguments without what a pattern takes away: it looks at one of them only, and all after its
match go with an end. The longest start is that of all of them, if the pattern matches the first
one. -/
def Cut.applyEach (cut : Cut) (steps : List PatternStep) (arguments : List Bytes) : List Bytes :=
  let hasEnd (text : Bytes) : Bool :=
    (List.range (text.length + 1)).any fun n => PatternStep.matchesAll steps (text.drop n)
  match cut, arguments with
  | _, [] => []
  | .start false, first :: rest => dropStart steps false first :: rest
  | .start true, first :: rest =>
    if PatternStep.matchesAll steps first then [[]] else dropStart steps true first :: rest
  | .ending true, first :: rest =>
    if hasEnd first then [dropEnd steps true first] else first :: rest
  | .ending false, all =>
    match all.reverse.dropWhile (!hasEnd ·) with
    | last :: before => (dropEnd steps false last :: before).reverse
    | [] => all

/-- The glyphs of a parameter. -/
def parameterGlyphs (m : Manner) (name : Bytes) : Action (List Glyph) := do
  let s ← get
  if s.keepsArguments m name then pure (argumentGlyphs m s.arguments)
  else
    match s.parameter? name with
    | some value => pure (glyphsOf m.inDouble value)
    | none =>
      if s.has 'u' then collapse s!"{String.ofList name}: parameter not set"
      else pure []

/-- The glyphs of the home of a user; a user who has none is left as written. -/
def homeGlyphs (user : Bytes) : Action (List Glyph) := do
  match (← get).homeOf? user with
  | some home => pure (home.map .quoted)
  | none => pure (('~' :: user).map .literal)

/-- The value of an arithmetic expression, with the assignments that it makes carried out. -/
def evaluate (text : Bytes) : Action Int := do
  let s ← get
  let values := s.bindings.map fun v => (v.1, v.2.value)
  let found := do
    let e ← Sum.read text
    let (n, after) ← e.eval values
    pure (n, after.take (after.length - values.length))
  match found with
  | .ok (n, assigned) => do
    assigned.reverse.forM fun v => assignTo v.1 v.2
    pure n
  | .error .overflow => throw (.killed arithmeticSignal)
  | .error fault => collapse (fault.message (String.ofList text))

/-- The fields of a word: the names of files that it matches, or the word itself. -/
def fieldBytes (s : State) (gs : List Glyph) : List Bytes :=
  let names := if s.has 'f' then [] else s.namesMatching (patternBytes gs)
  if names.isEmpty then [bytesOfGlyphs gs] else names

/-! ## Streams -/

/-- Lets a stream lead where another one leads. -/
def duplicateStream (stream : Nat) (source : Bytes) : Action Bool := do
  let s ← get
  if source = ['-'] then
    set (s.close stream)
    pure true
  else if source.isEmpty || !source.all Char.isDigit then do
    complain State.faulty s!"Syntax error: Bad fd number"
    throw .failing
  else
    match s.duplicate stream (decimal source) with
    | (true, s) =>
      set s
      pure true
    | (false, _) =>
      complain State.faulty s!"{String.ofList source}: Bad file descriptor"
      pure false

/-- Lets a stream lead to a file that is written. -/
def openForWriting (stream : Nat) (mode : OpenMode) (word : Bytes) : Action Bool := do
  let s ← get
  let name := String.ofList word
  let refuse (reason : String) : Action Bool := do
    complain State.faulty s!"cannot create {name}: {reason}"
    pure false
  match s.find word, newPlace? s word with
  | .ok .directory, _ => refuse "Is a directory"
  | .ok .closedDirectory, _ => refuse "Is a directory"
  | .ok (.closedFile _), _ => refuse "Permission denied"
  | .ok .device, _ =>
    set (s.open_ stream .nothing)
    pure true
  | .ok (.file _), .ok place =>
    if mode = .write && s.has 'C' then refuse "File exists"
    else
      let t := if mode = .append || mode = .update then s else s.putFile place []
      set (t.open_ stream (.file place 0 (mode = .append)))
      pure true
  | .error .notDirectory, _ => refuse "Not a directory"
  | .error .denied, _ => refuse "Permission denied"
  | _, .ok place =>
    set ((s.putFile place []).open_ stream (.file place 0 (mode = .append)))
    pure true
  | _, .error .nameTooLong => refuse "File name too long"
  | _, .error _ => refuse "Directory nonexistent"

/-- Lets a stream lead to a file. -/
def openFile (stream : Nat) (mode : OpenMode) (word : Bytes) : Action Bool := do
  let s ← get
  match String.ofList word, mode with
  | "/dev/stdout", _ => duplicateStream stream ['1']
  | "/dev/stderr", _ => duplicateStream stream ['2']
  | "/dev/zero", .read =>
    set (s.open_ stream (.source State.zeros))
    pure true
  | name, .read =>
    match s.find word, s.placeOf word with
    | .ok (.file _), .ok place =>
      set (s.open_ stream (.file place 0 false))
      pure true
    | .ok (.closedFile _), _ =>
      complain State.faulty s!"cannot open {name}: Permission denied"
      pure false
    | .ok _, _ =>
      set (s.open_ stream (.source []))
      pure true
    | .error _, _ =>
      complain State.faulty s!"cannot open {name}: No such file"
      pure false
  | _, _ => openForWriting stream mode word

/-- Does something, and then lets some streams lead where they led before. -/
def restoring (streams : List Nat) (action : Action Unit) : Action Unit := do
  let saved := (← get).streams
  try action
  finally
    modify fun s =>
      { s with
        streams := saved.filter (streams.contains ·.1) ++ s.streams.filter (!streams.contains ·.1) }

/-- The stream that a redirection is about. -/
def Redirection.stream : Redirection → Nat
  | .file stream _ _ => stream
  | .duplicate stream _ => stream
  | .text stream _ => stream

/-! ## Parts of a shell -/

/-- The words for a process that a signal ends. -/
def killedText (signal : Nat) : String :=
  match signalName signal with
  | "KILL" => "Killed"
  | "TERM" => "Terminated"
  | "FPE" => "Floating point exception"
  | "HUP" => "Hangup"
  | "USR1" => "User defined signal 1"
  | "USR2" => "User defined signal 2"
  | "ALRM" => "Alarm clock"
  | "ABRT" => "Aborted"
  | "QUIT" => "Quit"
  | "SEGV" => "Segmentation fault"
  | _ => ""

/-- Does something in a copy of the shell, which `change` makes other; of it the output, the files,
the signals on their way and the status remain. -/
def apart (change : State → State) (action : Action Unit) : Action Unit := do
  let s ← get
  let (outcome, t) := action.run.run (change s)
  let kept := { s with
    files := t.files, executables := t.executables, output := t.output, errors := t.errors
    collected := t.collected, signals := t.signals
    opened := t.opened.take s.opened.length, status := t.status % 256 }
  match outcome with
  | .error (.killed signal) =>
    let text := killedText signal
    set { kept with status := signalStatus + signal }
    if !text.isEmpty then remark (signalStatus + signal) text
  | .error .sleeping =>
    set kept
    throw .sleeping
  | _ => set kept

/-- A part of the shell, which keeps of its traps only those that ignore signals. -/
def State.part (s : State) : State :=
  { s with isPart := true, jobs := [], traps := s.traps.filter (·.2.isEmpty) }

/-- Does something whose failure counts or does not. -/
def tested (isCondition : Bool) (action : Action Unit) : Action Unit := do
  let before := (← get).isCondition
  modify fun s => { s with isCondition }
  try action
  finally modify fun s => { s with isCondition := before }

/-- Does something whose failure is none. -/
def asCondition (action : Action Unit) : Action Unit :=
  tested true action

/-- Does something whose failure counts also where the command around it is a condition. -/
def asStatement (action : Action Unit) : Action Unit :=
  tested false action

/-- Does something inside one more loop. -/
def inLoop (action : Action Unit) : Action Unit := do
  modify fun s => { s with loops := s.loops + 1 }
  try action
  finally modify fun s => { s with loops := s.loops - 1 }

/-- Does something as the command with a name, for its complaints. -/
def asCommand (name : String) (action : Action Unit) : Action Unit := do
  let before := (← get).command
  modify fun s => { s with command := some name }
  try action
  finally modify fun s => { s with command := before }

/-- Does something of which an error ends no more than itself. -/
def containing (action : Action Unit) : Action Unit := do
  match ← observing action with
  | .error .failing => pure ()
  | .error leave => throw leave
  | .ok _ => pure ()

/-- Ends a shell that is to end at a command that fails. -/
def checkStatus : Action Unit := do
  let s ← get
  if s.has 'e' && s.status != 0 && !s.isCondition then throw .exiting

/-- What becomes of a loop when its body is left. -/
def afterBody (outcome : Except Leave Unit) (goOn : Action Unit) : Action Unit :=
  match outcome with
  | .ok _ => goOn
  | .error (.breaking loops) => if 1 < loops then throw (.breaking (loops - 1)) else pure ()
  | .error (.continuing loops) => if 1 < loops then throw (.continuing (loops - 1)) else goOn
  | .error leave => throw leave

/-! ## Traps -/

/-- Sets what is done at some signals, or tells it. -/
def setTraps (words : List Bytes) : Action Unit := do
  let (_, words) ← takeLetters [] words
  let resets := match words with
    | word :: _ :: _ => !word.isEmpty && word.all Char.isDigit && (signalOf? 0 word).isSome
    | _ => true
  let (action, names) : Option Bytes × List Bytes := match words with
    | action :: names =>
      if resets then (none, words) else (if action = ['-'] then none else some action, names)
    | [] => (none, [])
  let s ← get
  if words.isEmpty then
    let sorted := s.traps.mergeSort fun a b => a.1 ≤ b.1
    emitText (ofLines (sorted.map fun t =>
      bytesOf "trap -- " ++ quotedBytes t.2 ++ bytesOf (" " ++ signalName t.1)))
  else
    setStatus 0
    let known := names.takeWhile fun name => (signalOf? 0 name).isSome
    known.forM fun name => modify fun s =>
      let signal := (signalOf? 0 name).getD 0
      let others := s.traps.filter (·.1 != signal)
      { s with traps := (action.map fun a => (signal, a)).toList ++ others }
    match names.drop known.length with
    | bad :: _ => remark 1 s!"trap: {String.ofList bad}: bad trap"
    | [] => pure ()

/-! ## Names of commands -/

/-- The programs that are run with the help of the shell. -/
def callingNames : List String :=
  ["[", "echo", "env", "false", "kill", "printf", "pwd", "sh", "test", "true", "which", "xargs"]

/-- Whether a program has a name. -/
def isProgram (name : String) : Bool :=
  (runUtility? ⟨name, [], [], fun _ => .ok []⟩).isSome || (program? name []).isSome ||
    callingNames.contains name

/-- The path of the program with a name, if there is one that can be found. -/
def State.programPath? (s : State) (word : Bytes) : Option Bytes :=
  if word.contains '/' then if s.isThere word then some word else none
  else if s.findsPrograms && isProgram (String.ofList word) then some (bytesOf "/usr/bin/" ++ word)
  else none

/-- What is told of the name of a command: by itself, or in words. -/
def State.nameText? (s : State) (inWords : Bool) (word : Bytes) : Option Bytes :=
  let name := String.ofList word
  let tell (text : String) : Option Bytes :=
    some (if inWords then word ++ bytesOf text else word)
  if keywords.contains word then tell " is a shell keyword"
  else
    match s.aliases.find? (·.name == word) with
    | some a =>
      some (if inWords then word ++ bytesOf " is an alias for " ++ a.text
        else bytesOf "alias " ++ a.line)
    | none =>
      if specialNames.contains name then tell " is a special shell builtin"
      else if (s.functions.lookup word).isSome then tell " is a shell function"
      else if plainNames.contains name then tell " is a shell builtin"
      else (s.programPath? word).map fun path => if inWords then word ++ bytesOf " is " ++ path else path

/-- Tells what names are. -/
def tellNames (inWords : Bool) (words : List Bytes) : Action Unit := do
  setStatus 0
  words.forM fun word => do
    match (← get).nameText? inWords word with
    | some text => emit (text ++ ['\n'])
    | none => do
      if inWords then emit (word ++ bytesOf ": not found\n")
      setStatus State.notFound

end ScriptTree.Shell
