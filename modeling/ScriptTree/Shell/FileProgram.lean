import ScriptTree.Shell.Action

/-!
The programs that change files, and those that tell their names.
-/

namespace ScriptTree.Shell

/-- Fails as a program does, with a complaint about it. -/
def failAs (program message : String) : Action Unit :=
  finish (.fail 1 s!"{program}: {message}")

/-- Fails for the lack of operands. -/
def missingOperand (program : String) : Action Unit := do
  failAs program "missing operand"
  remark 1 s!"Try '{program} --help' for more information."

/-- Does something for each of the words of a program, of which there must be some. The status is
that of success if none of them fails. -/
def forWords (program : String) (words : List Bytes) (action : Bytes → Action Unit) :
    Action Unit := do
  if words.isEmpty then missingOperand program
  else
    setStatus 0
    words.forM action

/-- The place of a word at which something may be made: the directory that it is in must be there. -/
def newPlace? (s : State) (word : Bytes) : Except FileFault FilePlace := do
  let place ← s.placeOf word
  match s.files.entry? (s.files.placeAbove place) with
  | some .directory => pure place
  | _ => .error .missing

/-- Makes files that are not there. -/
def touchAll (words : List Bytes) : Action Unit := do
  let (options, names) := optionsIn ['d', 't', 'r'] words
  let makes := !options.any (·.1 = 'c')
  forWords "touch" names fun word => do
    let s ← get
    if s.isThere word || !makes || word = ['-'] then pure ()
    else
      match newPlace? s word with
      | .ok place => set (s.putFile place [])
      | .error fault =>
        failAs "touch" s!"cannot touch '{String.ofList word}': {faultText fault}"

/-- Makes directories. -/
def makeDirectories (words : List Bytes) : Action Unit := do
  let (options, names) := optionsIn ['m'] words
  let makesAll := options.any (·.1 = 'p')
  forWords "mkdir" names fun word => do
    let s ← get
    let fail (text : String) : Action Unit :=
      failAs "mkdir" s!"cannot create directory '{String.ofList word}': {text}"
    if makesAll then
      match s.files.makeDirectory (s.pathOf word) with
      | (.ok _, files) => set { s with files }
      | (.error fault, files) => do
        set { s with files }
        fail (if fault = .notDirectory then "File exists" else faultText fault)
    else if s.isThere word then fail "File exists"
    else
      match newPlace? s word with
      | .ok place => set { s with files := s.files.putAt place .directory }
      | .error fault => fail (faultText fault)

/-- Takes files away, and directories with all that is in them if that is asked for. -/
def removeAll (words : List Bytes) : Action Unit := do
  let (options, names) := optionsIn [] words
  let has (flag : Char) : Bool := options.any (·.1 = flag)
  let goesDown := has 'r' || has 'R'
  if has 'f' && names.isEmpty then setStatus 0
  else
    forWords "rm" names fun word => do
      let s ← get
      let fail (text : String) : Action Unit :=
        failAs "rm" s!"cannot remove '{String.ofList word}': {text}"
      match s.find word, s.placeOf word with
      | .ok e, .ok place =>
        if e.isDirectory && !goesDown then fail "Is a directory"
        else set { s with files := s.files.removeAt place }
      | .error fault, _ => if has 'f' then pure () else fail (faultText fault)
      | _, .error fault => fail (faultText fault)

/-- Takes empty directories away. -/
def removeDirectories (words : List Bytes) : Action Unit := do
  let (_, names) := optionsIn [] words
  forWords "rmdir" names fun word => do
    let s ← get
    let fail (text : String) : Action Unit :=
      failAs "rmdir" s!"failed to remove '{String.ofList word}': {text}"
    match s.find word, s.placeOf word with
    | .ok .directory, .ok place =>
      if (s.files.names place).isEmpty then set { s with files := s.files.removeAt place }
      else fail "Directory not empty"
    | .ok _, _ => fail "Not a directory"
    | .error fault, _ => fail (faultText fault)

/-- What stands at a place and below it, with its way from there. -/
def entriesAt (files : FileStore) (place : FilePlace) : List (List String × FileEntry) :=
  let below (entries : List (List String × FileEntry)) (parts : List String) :=
    entries.filterMap fun e =>
      if parts.isPrefixOf e.1 then some (e.1.drop parts.length, e.2) else none
  match place with
  | .below parts => below files.entries parts
  | .elsewhere parts => below files.outside parts
  | _ => []

/-- Copies what stands at a word to another one, or into the directory that is there. -/
def copyTo (program : String) (goesDown : Bool) (source target : Bytes) : Action Bool := do
  let s ← get
  let name := String.ofList source
  let into := if s.isDirectory target then target ++ '/' :: baseName source [] else target
  match s.find source, s.placeOf source with
  | .error fault, _ => do
    failAs program s!"cannot stat '{name}': {faultText fault}"
    pure false
  | .ok .directory, .ok from_ =>
    match goesDown, newPlace? s into with
    | false, _ => do
      failAs program s!"-r not specified; omitting directory '{name}'"
      pure false
    | true, .error fault => do
      failAs program s!"cannot create directory '{String.ofList into}': {faultText fault}"
      pure false
    | true, .ok place => do
      let files := (entriesAt s.files from_).foldl (fun files e =>
        files.putAt (e.1.foldl FileStore.placeIn place) e.2) (s.files.putAt place .directory)
      set { s with files }
      pure true
  | .ok e, _ =>
    match newPlace? s into with
    | .ok place => do
      set { s with files := s.files.putAt place e }
      pure true
    | .error fault => do
      failAs program s!"cannot create regular file '{String.ofList into}': {faultText fault}"
      pure false

/-- Copies files, or with `moving` gives them another name. -/
def copyAll (program : String) (moving : Bool) (words : List Bytes) : Action Unit := do
  let (options, names) := optionsIn [] words
  let goesDown := moving || options.any fun o => ['r', 'R', 'a'].contains o.1
  match names.getLast?, names.dropLast with
  | none, _ => failAs program "missing file operand"
  | some name, [] =>
    failAs program s!"missing destination file operand after '{String.ofList name}'"
  | some target, sources => do
    setStatus 0
    sources.forM fun source => do
      if ← copyTo program goesDown source target then
        if moving then
          modify fun s =>
            match s.placeOf source with
            | .ok place => { s with files := s.files.removeAt place }
            | .error _ => s

/-- Writes the input to files and to the output. -/
def teeAll (words : List Bytes) : Action Unit := do
  let (options, names) := optionsIn [] words
  let text := (← get).input
  setStatus 0
  names.forM fun word => do
    let s ← get
    match newPlace? s word with
    | .ok place =>
      let old := if options.any (·.1 = 'a') then s.contentAt place else []
      set (s.putFile place ((old ++ text).map fun c => UInt8.ofNat c.toNat))
    | .error fault => failAs "tee" s!"{String.ofList word}: {faultText fault}"
  modify fun s => (s.passInput text.length).write 1 text

/-- Makes files such that they are run, or are not. -/
def changeModes (words : List Bytes) : Action Unit := do
  match words with
  | mode :: names =>
    setStatus 0
    let isOctal := mode.all Char.isDigit
    let runs := if isOctal then (decimal mode / 100) % 2 = 1 else mode.contains '+' || mode.contains '='
    let concerned := isOctal || mode.contains 'x'
    names.forM fun word => do
      let s ← get
      match s.placeOf word, s.isThere word with
      | .ok place, true =>
        let others := s.executables.filter (· != place)
        if concerned then set { s with executables := if runs then place :: others else others }
      | _, _ => failAs "chmod" s!"cannot access '{String.ofList word}': No such file or directory"
  | [] => missingOperand "chmod"

/-- Lists names: of the files given, and of all that is in the directories given. -/
def listNames (words : List Bytes) : Action Unit := do
  let (options, given) := optionsIn [] words
  let has (flag : Char) : Bool := options.any (·.1 = flag)
  let s ← get
  let ordered (names : List Bytes) : List Bytes :=
    let sorted := names.mergeSort fun a b => !decide (b < a)
    if has 'r' then sorted.reverse else sorted
  let given := ordered (if given.isEmpty then [['.']] else given)
  let (there, missing) := given.partition s.isThere
  let (directories, others) := there.partition fun word => s.isDirectory word && !has 'd'
  let shown (word : Bytes) : Bytes :=
    if has 'F' && s.isDirectory word then word ++ ['/'] else word
  let namesOf (word : Bytes) : List Bytes :=
    let names := match s.placeOf word with
      | .ok place => (s.files.names place).map bytesOf
      | .error _ => []
    let dots := if has 'a' then [['.'], ['.', '.']] else []
    let seen := names.filter fun n => has 'a' || has 'A' || n.head? != some '.'
    (ordered (dots ++ seen)).map fun n => shown n
  let titled := 1 < given.length
  let block (word : Bytes) : Bytes :=
    (if titled then word ++ [':', '\n'] else []) ++ ofLines (namesOf word)
  let blocks := (if others.isEmpty then [] else [ofLines (others.map shown)]) ++
    directories.map block
  finish
    { output := List.intercalate ['\n'] blocks
      complaints := missing.map fun word =>
        s!"ls: cannot access '{String.ofList word}': No such file or directory"
      status := if missing.isEmpty then 0 else 2, tookInput := false }

/-- A text with numbers before its lines, the next of which is given, and whether the text before it
ended in a line break; with the number and the end for the text after it. -/
def numbered (next : Nat) (atStart : Bool) : Bytes → Bytes × Nat × Bool
  | [] => ([], next, atStart)
  | c :: cs =>
    let before := if atStart then inField false 6 (numberText (next : Nat)) ++ ['\t'] else []
    let (text, last) := numbered (if atStart then next + 1 else next) (c = '\n') cs
    (before ++ c :: text, last)

/-- Prints files one after the other; `place` tells the number of the next line and whether one
begins, where they are numbered. -/
def printEach (place : Option (Nat × Bool)) : List Bytes → Action Unit
  | [] => pure ()
  | word :: words => do
    let s ← get
    let found := if word = ['-'] then .ok s.input else s.readFile word
    if word = ['-'] then set (s.passInput s.input.length)
    match found, place with
    | .ok text, some (next, atStart) => do
      let (text, next, atStart) := numbered next atStart text
      modify (·.write 1 text)
      printEach (some (next, atStart)) words
    | .ok text, none => do
      modify (·.write 1 text)
      printEach none words
    | .error fault, _ => do
      remark 1 s!"cat: {String.ofList word}: {faultText fault}"
      printEach place words

/-- Prints files, or what comes in. -/
def printFiles (words : List Bytes) : Action Unit := do
  let (options, names) := optionsIn [] words
  setStatus 0
  printEach (if options.any (·.1 = 'n') then some (1, true) else none)
    (if names.isEmpty then [['-']] else names)

/-- What the program with a name does with files, if it is one of these. -/
def fileProgram? (name : String) (words : List Bytes) : Option (Action Unit) :=
  match name with
  | "cat" => some (printFiles words)
  | "touch" => some (touchAll words)
  | "mkdir" => some (makeDirectories words)
  | "rm" => some (removeAll words)
  | "rmdir" => some (removeDirectories words)
  | "cp" => some (copyAll name false words)
  | "mv" => some (copyAll name true words)
  | "tee" => some (teeAll words)
  | "chmod" => some (changeModes words)
  | "ls" => some (listNames words)
  | _ => none

end ScriptTree.Shell
