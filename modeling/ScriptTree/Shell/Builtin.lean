import ScriptTree.Shell.FileProgram
import ScriptTree.Shell.Format
import ScriptTree.Shell.OptionReader

/-!
The commands of the shell that act on its state alone.
-/

namespace ScriptTree.Shell

/-! ## Variables -/

/-- The variables of a kind with their values, each after the word that makes it so. -/
def listVariables (before : String) (names : List Bytes) : Action Unit := do
  let s ← get
  emitText (variableLines before (names.map fun n => (n, s.value? n)))

/-- Exports variables, or tells which are. -/
def exportAll (words : List Bytes) : Action Unit := do
  let (letters, words) ← takeLetters ['p'] words
  let s ← get
  if words.isEmpty || !letters.isEmpty then
    listVariables "export " ((s.bindings.filter (·.2.isExported)).map (·.1))
  else
    setStatus 0
    words.forM fun word => do
      let (name, value) := parted word
      checkName name
      if value.isSome then checkChange name
      modify fun s =>
        match value, s.value? name with
        | some value, _ => s.put name ⟨value, true⟩
        | none, some value => s.put name ⟨value, true⟩
        | none, none => { s with exports := name :: s.exports }

/-- Gives variables their last values, or tells which have theirs. -/
def makeConstant (words : List Bytes) : Action Unit := do
  let (letters, words) ← takeLetters ['p'] words
  if words.isEmpty || !letters.isEmpty then listVariables "readonly " (← get).constants
  else
    setStatus 0
    words.forM fun word => do
      let (name, value) := parted word
      checkName name
      match value with
      | some value => assignTo name value
      | none => pure ()
      modify fun s => { s with constants := name :: s.constants.filter (· != name) }

/-- Makes variables local to the function in progress, and with a dash the flags. -/
def makeLocal (words : List Bytes) : Action Unit := do
  if !(← get).isInFunction then collapse "not in a function"
  setStatus 0
  words.forM fun word => do
    let (name, value) := parted word
    if word = ['-'] then modify fun s => { s with localFlags := some (s.localFlags.getD s.flags) }
    else
      checkName name
      checkChange name
      modify fun s => { s with locals := (name, s.bindings.lookup name) :: s.locals }
      match value with
      | some value => assignTo name value
      | none => pure ()

/-- Takes variables, or with `-f` functions, away. -/
def unsetAll (words : List Bytes) : Action Unit := do
  let (letters, names) ← takeLetters ['f', 'v'] words
  if letters.contains 'f' then
    modify fun s => { s with functions := s.functions.filter (!names.contains ·.1) }
  else
    names.forM fun name => do
      checkName name
      checkChange name
      modify fun s => { s.unset name with exports := s.exports.filter (· != name) }
  setStatus 0

/-! ## Flags and arguments -/

/-- Sets a flag that there must be. -/
def setLetter (isSet : Bool) (flag : Char) : Action Unit := do
  if (State.flagNames.lookup flag).isSome && flag.isAlpha then modify (·.setFlag isSet flag)
  else collapse s!"Illegal option -{flag}"

/-- The sign before the letters of flags that are set, or taken away. -/
def flagSign (isSet : Bool) : String :=
  if isSet then "-" else "+"

/-- Sets the flag with a name. -/
def setNamed (isSet : Bool) (name : Bytes) : Action Unit := do
  match State.flagNames.find? (·.2 == String.ofList name) with
  | some (flag, _) => modify (·.setFlag isSet flag)
  | none => collapse s!"Illegal option {flagSign isSet}o {String.ofList name}"

/-- Tells all flags: in a table, or as commands that set them. -/
def listFlags (asTable : Bool) : Action Unit := do
  let s ← get
  let table := State.flagNames.map fun (flag, name) =>
    let padding := String.ofList (List.replicate (16 - name.length) ' ')
    bytesOf (name ++ padding ++ (if s.has flag then "on" else "off"))
  let commands := State.flagNames.map fun (flag, name) =>
    bytesOf s!"set {flagSign (s.has flag)}o {name}"
  emitText (ofLines (if asTable then bytesOf "Current option settings" :: table else commands))

/-- Sets flags by the words before the first argument; gives the arguments, if there are to be new
ones. -/
def setFlags (isCommandLine : Bool) : List Bytes → Action (Option (List Bytes))
  | [] => pure none
  | ['-', '-'] :: words =>
    pure (if isCommandLine && words.isEmpty then none else some words)
  | ['-'] :: words => do
    modify fun s => (s.setFlag false 'x').setFlag false 'v'
    pure (if words.isEmpty then none else some words)
  | [sign, 'o'] :: words => do
    if sign = '-' || sign = '+' then
      match words with
      | name :: rest => do
        setNamed (sign = '-') name
        setFlags isCommandLine rest
      | [] => do
        listFlags (sign = '-')
        pure none
    else pure (some ([sign, 'o'] :: words))
  | (sign :: letters) :: words => do
    if sign = '-' || sign = '+' then
      letters.forM (setLetter (sign = '-'))
      setFlags isCommandLine words
    else pure (some ((sign :: letters) :: words))
  | words => pure (some words)

/-- Sets flags and arguments, or tells all variables. -/
def setAll (words : List Bytes) : Action Unit := do
  let s ← get
  if words.isEmpty then emitText (variableLines "" (s.bindings.map fun v => (v.1, some v.2.value)))
  else
    setStatus 0
    match ← setFlags false words with
    | some arguments => modify fun s => { s with arguments, options := ⟨1, none⟩ }
    | none => pure ()

/-- Drops the first arguments. -/
def shiftBy (words : List Bytes) : Action Unit := do
  let count ← match words.head? with
    | some word => numberIn word
    | none => pure 1
  if (← get).arguments.length < count then collapse "can't shift that many"
  else
    modify fun s => { s with arguments := s.arguments.drop count, options := ⟨1, none⟩ }
    setStatus 0

/-- Reads the next option of the arguments, or of the words given. -/
def readOptions (words : List Bytes) : Action Unit := do
  match words with
  | known :: name :: given => do
    let s ← get
    let arguments := if given.isEmpty then s.arguments else given
    let place := if arguments.length + 1 < s.options.next then ⟨1, none⟩ else s.options
    let found := readOption known arguments place
    match found.value, found.isFound with
    | some value, _ => assignTo (bytesOf "OPTARG") value
    | none, true => modify (·.unset (bytesOf "OPTARG"))
    | none, false => pure ()
    match found.complaint with
    | some line => remark 0 line
    | none => pure ()
    modify fun s => s.assign (bytesOf "OPTIND") (numberText found.place.next)
    assignTo name [found.letter]
    modify fun s => { s with options := found.place }
    setTruth found.isFound
  | _ => collapse "Usage: getopts optstring var [arg...]"

/-! ## Input -/

/-- A line of an input and the number of bytes that it takes: a backslash takes the meaning of the
next byte away, and a line break after it too; `fuel` is the length of the input. The last component
tells whether the line ends. -/
def takeLine (isRaw : Bool) : Nat → Bytes → List PatternByte × Nat × Bool
  | 0, _ => ([], 0, false)
  | fuel + 1, cs =>
    let cons (first : List PatternByte) (count : Nat) (rest : Bytes) :=
      let (line, more, isWhole) := takeLine isRaw fuel rest
      (first ++ line, more + count, isWhole)
    match cs with
    | [] => ([], 0, false)
    | '\n' :: _ => ([], 1, true)
    | '\x00' :: rest => cons [] 1 rest
    | '\\' :: c :: rest =>
      if isRaw then cons [('\\', false)] 1 (c :: rest)
      else cons (if c = '\n' then [] else [(c, true)]) 2 rest
    | c :: rest => if c = '\\' && !isRaw then cons [] 1 rest else cons [(c, false)] 1 rest

/-- The flags of `read`, and its words: a prompt follows one of them. -/
def readLetters : List Bytes → Action (Bytes × List Bytes)
  | ['-', 'p'] :: _ :: words => readLetters words
  | ('-' :: 'p' :: _ :: _) :: words => readLetters words
  | ['-', 'r'] :: words => do
    let (letters, words) ← readLetters words
    pure ('r' :: letters, words)
  | words => takeLetters ['r'] words

/-- Reads a line of the input into variables. -/
def readInto (words : List Bytes) : Action Unit := do
  let (letters, names) ← readLetters words
  if names.isEmpty then collapse "arg count"
  let s ← get
  let (line, count, isWhole) := takeLine (letters.contains 'r') s.input.length s.input
  set (s.passInput count)
  let values := readValues s.separators names.length line
  (names.zip values).forM fun v => assignTo v.1 v.2
  setTruth isWhole

/-! ## Directories -/

/-- Goes to a directory, and tells it if `isTold`. -/
def enter (word : Bytes) (isTold : Bool) : Action Unit := do
  let s ← get
  let path := s.pathOf word
  let path := { path with parts := Path.climb [] path.parts }
  if word.isEmpty then setStatus 0
  else if s.files.isDirectory path then
    let old := (s.value? (bytesOf "PWD")).getD (bytesOf (s.directoryText s.directory))
    let new := bytesOf (s.directoryText path)
    let t := { s with directory := path }.put (bytesOf "OLDPWD") ⟨old, true⟩
    set (t.put (bytesOf "PWD") ⟨new, true⟩)
    setStatus 0
    if isTold then emit (new ++ ['\n'])
  else complain State.faulty s!"can't cd to {String.ofList word}"

/-- Goes to a directory: also to one that is in some other directory that is searched. -/
def changeDirectory (words : List Bytes) : Action Unit := do
  let (_, words) ← takeLetters ['L', 'P'] words
  let s ← get
  match words with
  | [] => enter ((s.value? (bytesOf "HOME")).getD []) false
  | ['-'] :: _ => enter ((s.value? (bytesOf "OLDPWD")).getD []) true
  | word :: _ =>
    let first := (pieces '/' word).headD []
    let searched := match s.value? (bytesOf "CDPATH") with
      | some text => if [[], ['.'], ['.', '.']].contains first then [] else pieces ':' text
      | none => []
    let inside (home : Bytes) : Bytes := if home.isEmpty then word else home ++ '/' :: word
    match searched.find? fun home => s.isDirectory (inside home) with
    | some home => enter (inside home) !home.isEmpty
    | none => enter word false

/-- Tells the directory. -/
def tellDirectory (words : List Bytes) : Action Unit := do
  let _ ← takeLetters ['L', 'P'] words
  let s ← get
  emitText (bytesOf (s.directoryText s.directory) ++ ['\n'])

/-! ## Aliases -/

/-- The line that tells an alias. -/
def Alias.line (a : Alias) : Bytes :=
  a.name ++ '=' :: quotedBytes a.text

/-- Makes aliases, or tells them. -/
def makeAliases (words : List Bytes) : Action Unit := do
  let s ← get
  if words.isEmpty then emitText (ofLines ((Alias.listed s.aliases).map Alias.line))
  else
    setStatus 0
    words.forM fun word => do
      let s ← get
      let (name, text) := match word with
        | c :: rest =>
          let (name, text) := parted rest
          (c :: name, text)
        | [] => ([], none)
      match text, s.aliases.find? (·.name == word) with
      | some text, _ => set { s with aliases := Alias.put s.aliases ⟨name, text⟩ }
      | none, some a => emit (ofLines [a.line])
      | none, none => remark 1 s!"alias: {String.ofList word} not found"

/-- Takes aliases away. -/
def removeAliases (words : List Bytes) : Action Unit := do
  let (letters, names) ← takeLetters ['a'] words
  setStatus 0
  if letters.contains 'a' then modify fun s => { s with aliases := [] }
  else
    names.forM fun name => do
      let s ← get
      if s.aliases.any (·.name == name) then
        set { s with aliases := s.aliases.filter (·.name != name) }
      else remark 1 s!"unalias: {String.ofList name} not found"

/-! ## Leaving -/

/-- Leaves loops. -/
def leaveLoops (words : List Bytes) (leave : Nat → Leave) : Action Unit := do
  let count ← match words.head? with
    | some word => numberIn word
    | none => pure 1
  let loops := (← get).loops
  if count = 0 then collapse "Illegal number: 0"
  setStatus 0
  if loops = 0 then pure () else throw (leave (min count loops))

/-- Leaves a function or the shell, with the status that a word tells. -/
def leaveWith (words : List Bytes) (leave : Leave) : Action Unit := do
  match words with
  | [] => pure ()
  | word :: _ => setStatus (← numberIn word)
  throw leave

/-! ## Conditions and output -/

/-- Tells whether a condition holds. -/
def runTest (words : List Bytes) : Action Unit := do
  match holds (← get).tests words with
  | .ok b => setTruth b
  | .error fault => complain State.faulty fault.message

/-- The condition in brackets. -/
def runBracket (words : List Bytes) : Action Unit :=
  match words.getLast? with
  | some [']'] => runTest words.dropLast
  | _ => complain State.faulty ConditionFault.missingBracket.message

/-- Writes with a format. -/
def runPrint (words : List Bytes) : Action Unit := do
  let (_, words) ← takeLetters [] words
  match words with
  | [] => complain State.faulty "usage: printf format [arg ...]"
  | format :: arguments => do
    let (output, faults) := printed format arguments
    setStatus 0
    faults.forM fun fault => complain fault.status fault.message
    emit output

/-! ## The rest -/

/-- Waits, which nothing comes of, unless others go on meanwhile. -/
def runSleep : Action Unit := do
  if (← get).isInBackground then throw .sleeping
  setStatus 0

/-- The letters of what a class of users may do with a new file. -/
def maskLetters (bits : Nat) : String :=
  (if bits / 4 % 2 = 0 then "r" else "") ++ (if bits / 2 % 2 = 0 then "w" else "") ++
    (if bits % 2 = 0 then "x" else "")

/-- Sets the bits that new files do without, or tells them. -/
def setMask (words : List Bytes) : Action Unit := do
  let (letters, words) ← takeLetters ['S'] words
  let mask := (← get).mask
  match words with
  | [] =>
    let text := if letters.contains 'S' then
        s!"u={maskLetters (mask / 64)},g={maskLetters (mask / 8)},o={maskLetters mask}"
      else String.ofList (digitsWith 4 8 mask)
    emitText (bytesOf (text ++ "\n"))
  | word :: _ =>
    if word.all isOctalDigit && !word.isEmpty then
      modify fun s => { s with mask := inBase 8 word % 512 }
      setStatus 0
    else collapse s!"Illegal number: {String.ofList word}"

/-- Writes the exported variables, or the values of some. -/
def printVariables (words : List Bytes) : Action Unit := do
  let s ← get
  let exported := (s.bindings.filter (·.2.isExported)).reverse
  match words with
  | [] => emitText (ofLines (exported.map fun v => v.1 ++ '=' :: v.2.value))
  | names =>
    let values := names.filterMap fun n => (exported.lookup n).map (·.value)
    emit (ofLines values)
    setTruth (values.length = names.length)

/-- The commands of the shell that functions replace. -/
def plainNames : List String :=
  ["[", "alias", "bg", "cd", "chdir", "command", "echo", "false", "fg", "getopts", "hash", "jobs",
    "kill", "printf", "pwd", "read", "test", "true", "type", "ulimit", "umask", "unalias", "wait"]

/-- What the command of the shell with a name does, if it acts on the state alone. -/
def builtin? (name : String) (words : List Bytes) : Option (Action Unit) :=
  match name with
  | ":" | "true" | "times" | "ulimit" | "jobs" => some (setStatus 0)
  | "false" => some (setStatus 1)
  | "fg" | "bg" => some (collapse "No current job")
  | "echo" => some (emitText (echoed words))
  | "printf" => some (runPrint words)
  | "test" => some (runTest words)
  | "[" => some (runBracket words)
  | "cd" | "chdir" => some (changeDirectory words)
  | "pwd" => some (tellDirectory words)
  | "export" => some (exportAll words)
  | "readonly" => some (makeConstant words)
  | "local" => some (makeLocal words)
  | "unset" => some (unsetAll words)
  | "set" => some (setAll words)
  | "shift" => some (shiftBy words)
  | "getopts" => some (readOptions words)
  | "read" => some (readInto words)
  | "alias" => some (makeAliases words)
  | "unalias" => some (removeAliases words)
  | "umask" => some (setMask words)
  | "exit" => some (leaveWith words .exiting)
  | "return" => some (leaveWith words .returning)
  | "break" => some (leaveLoops words .breaking)
  | "continue" => some (leaveLoops words .continuing)
  | _ => none

/-- What the program with a name does, if it acts on the state of the shell. -/
def program? (name : String) (words : List Bytes) : Option (Action Unit) :=
  match name with
  | "sleep" => some runSleep
  | "printenv" => some (printVariables words)
  | _ => fileProgram? name words

end ScriptTree.Shell
