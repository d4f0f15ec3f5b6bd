import ScriptTree.File.Store
import ScriptTree.Shell.Condition
import ScriptTree.Shell.Field
import ScriptTree.Shell.Signal

/-!
The state of a shell: parameters, functions, files, and where each stream leads.
-/

namespace ScriptTree.Shell

/-- A variable with its value; those exported are passed on to programs. -/
structure Variable where
  value : Bytes
  isExported : Bool
  deriving Repr

/-- Where an open stream leads. -/
inductive Target where
  | output
  | errors
  | nothing
  /-- The text that a command in progress collects, by its place among all such texts. -/
  | collected (place : Nat)
  /-- Text that is still to be read. -/
  | source (content : Bytes)
  /-- A file, from a position on, or always from its end. -/
  | file (place : FilePlace) (position : Nat) (appends : Bool)
  deriving Repr

/-- What ends commands before their end. -/
inductive Leave where
  | breaking (loops : Nat)
  | continuing (loops : Nat)
  | returning
  /-- The shell, or the part of it in parentheses, ends with the status that it has. -/
  | exiting
  /-- An error ends the command in progress, and the shell if nothing stops it. -/
  | failing
  /-- A signal ends the shell, or the part of it in parentheses. -/
  | killed (signal : Nat)
  /-- A command in the background waits beyond the end of the others. -/
  | sleeping
  deriving DecidableEq, Repr

/-- A command in the background: its status if it has ended, else what it does when it is waited
for. -/
structure Job where
  pid : Nat
  status : Option Nat
  command : Command

/-- How far the options among the arguments are read: the number of the next argument, and the place
in the one before it if it is not read to its end. -/
structure OptionPlace where
  next : Nat
  inside : Option Nat
  deriving DecidableEq, Repr

/-- The state of a shell. What is written is held in pieces, the last one first. -/
structure State where
  name : String
  pid : Nat
  /-- Whether this is a part of a shell that runs apart from it. -/
  isPart : Bool
  home : String
  /-- The homes of the users. -/
  users : List (Bytes × Bytes)
  bindings : List (Bytes × Variable)
  /-- Variables that are exported once they have values. -/
  exports : List Bytes
  functions : List (Bytes × Command)
  aliases : List Alias
  traps : List (Nat × Bytes)
  arguments : List Bytes
  options : OptionPlace
  /-- The variables whose values stay. -/
  constants : List Bytes
  /-- The letters of the flags that are set. -/
  flags : List Char
  isInFunction : Bool
  /-- The number of functions in progress. -/
  depth : Nat
  /-- The variables that the function in progress gives back, with their old values. -/
  locals : List (Bytes × Option Variable)
  /-- The flags that the function in progress gives back. -/
  localFlags : Option (List Char)
  status : Nat
  /-- The status of the last command whose output became part of the command in progress. -/
  innerStatus : Option Nat
  /-- The number of loops in progress. -/
  loops : Nat
  directory : Path
  files : FileStore
  /-- The files that are made to be run. -/
  executables : List FilePlace
  /-- The bits that new files do without. -/
  mask : Nat
  /-- All streams that were opened; several numbers may stand for one. -/
  opened : List Target
  streams : List (Nat × Nat)
  output : List Bytes
  errors : List Bytes
  collected : List (List Bytes)
  jobs : List Job
  /-- Signals on their way, with the processes that they go to. -/
  signals : List (Nat × Nat)
  /-- The line in which the text that is not yet read begins. -/
  reading : Nat
  /-- The line of the command in progress. -/
  line : Nat
  /-- The command of the shell in progress, for its complaints. -/
  command : Option String
  /-- Whether a command decides what comes next, so that its failure is none. -/
  isCondition : Bool
  isInBackground : Bool

namespace State

/-- The number of functions that may be in progress at once. -/
def deepest : Nat := 1000

/-- The process id of the shell, which no other process here has. -/
def firstPid : Nat := 4217

/-- The variables that every shell has. -/
def firstVariables (home : String) : List (Bytes × Variable) :=
  [("IFS", " \t\n"), ("OPTIND", "1"), ("PS1", "# "), ("PS2", "> "), ("PS4", "+ "), ("PPID", "4216"),
    ("PWD", home)].map fun v => (bytesOf v.1, ⟨bytesOf v.2, false⟩)

/-- A shell that has just started. Its variables are all exported. -/
def start (name home : String) (users assigned : List (Bytes × Bytes)) (files : FileStore) :
    State :=
  { name, pid := firstPid, isPart := false, home, users
    bindings := assigned.map (fun v => (v.1, ⟨v.2, true⟩)) ++
      (firstVariables home).filter fun v => (assigned.lookup v.1).isNone
    exports := [], functions := [], aliases := [], traps := [], arguments := [], options := ⟨1, none⟩
    constants := [], flags := ['s'], isInFunction := false, depth := 0, locals := [], localFlags := none
    status := 0, innerStatus := none, loops := 0
    directory := ⟨"", []⟩, files, executables := [], mask := 18
    opened := [.source [], .output, .errors], streams := [(0, 0), (1, 1), (2, 2)]
    output := [], errors := [], collected := [], jobs := [], signals := [], reading := 1, line := 1
    command := none, isCondition := false, isInBackground := false }

/-! ## Flags -/

/-- The letters of the flags with their names, in order. -/
def flagNames : List (Char × String) :=
  [('e', "errexit"), ('f', "noglob"), ('I', "ignoreeof"), ('i', "interactive"), ('m', "monitor"),
    ('n', "noexec"), ('s', "stdin"), ('x', "xtrace"), ('v', "verbose"), ('V', "vi"),
    ('E', "emacs"), ('C', "noclobber"), ('a', "allexport"), ('b', "notify"), ('u', "nounset"),
    ('p', "privileged"), ('\x01', "nolog"), ('\x02', "debug")]

/-- Whether a flag is set. -/
def has (s : State) (flag : Char) : Bool :=
  s.flags.contains flag

/-- Sets a flag, or takes it away. -/
def setFlag (s : State) (isSet : Bool) (flag : Char) : State :=
  let others := s.flags.filter (· != flag)
  { s with flags := if isSet then flag :: others else others }

/-- The letters of the flags that are set, the last one first. -/
def flagText (s : State) : Bytes :=
  ((flagNames.map (·.1)).filter fun c => c.isAlpha && s.has c).reverse

/-! ## Parameters -/

/-- The value of a variable. -/
def value? (s : State) (name : Bytes) : Option Bytes :=
  (s.bindings.lookup name).map (·.value)

/-- Puts a variable. The one that counts the options read sets how far they are. -/
def put (s : State) (name : Bytes) (v : Variable) : State :=
  let s := { s with bindings := (name, v) :: s.bindings.filter (·.1 != name) }
  if name = bytesOf "OPTIND" then
    let n := if v.value.all Char.isDigit then decimal v.value else 0
    { s with options := ⟨if n = 0 then 1 else n, none⟩ }
  else s

/-- Gives a variable a value; whether it is exported stays, unless it or all are to be. -/
def assign (s : State) (name value : Bytes) : State :=
  let isExported := ((s.bindings.lookup name).map (·.isExported)).getD (s.exports.contains name)
  s.put name ⟨value, isExported || s.has 'a'⟩

/-- Takes a variable away. -/
def unset (s : State) (name : Bytes) : State :=
  { s with bindings := s.bindings.filter (·.1 != name) }

/-- Puts variables back as they were. -/
def restore (s : State) (old : List (Bytes × Option Variable)) : State :=
  old.foldl (fun s v =>
    match v.2 with
    | some old => s.put v.1 old
    | none => s.unset v.1) s

/-- The bytes that part fields. -/
def separators (s : State) : Bytes :=
  (s.value? (bytesOf "IFS")).getD [' ', '\t', '\n']

/-- All arguments as one text, with the first separator between them. -/
def joinedArguments (s : State) : Bytes :=
  List.intercalate (s.separators.take 1) s.arguments

/-- The value of a parameter; all arguments together always have one. -/
def parameter? (s : State) (name : Bytes) : Option Bytes :=
  match name with
  | ['@'] => some s.joinedArguments
  | ['*'] => some s.joinedArguments
  | ['#'] => some (numberText s.arguments.length)
  | ['?'] => some (numberText s.status)
  | ['$'] => some (numberText s.pid)
  | ['-'] => some s.flagText
  | ['!'] => s.jobs.getLast?.map fun j => numberText j.pid
  | c :: _ =>
    if c.isDigit then
      match decimal name with
      | 0 => some (bytesOf s.name)
      | n + 1 => s.arguments[n]?
    else s.value? name
  | [] => none

/-- The home of the user with a name, or of the one whose shell this is. -/
def homeOf? (s : State) (user : Bytes) : Option Bytes :=
  if user.isEmpty then s.value? (bytesOf "HOME") else s.users.lookup user

/-! ## Files -/

/-- The path of a word: it starts in the directory in which the shell is, and is known by its parts
below the home of the shell if it is there. -/
def pathOf (s : State) (word : Bytes) : Path :=
  let given := Path.ofText (String.ofList word)
  let top := Path.ofText s.home
  if given.root == top.root && !top.parts.isEmpty && top.parts.isPrefixOf given.parts then
    ⟨"", given.parts.drop top.parts.length⟩
  else if given.isAbsolute then given
  else { s.directory with parts := s.directory.parts ++ given.parts }

/-- The place that a word leads to. -/
def placeOf (s : State) (word : Bytes) : Except FileFault FilePlace :=
  if word.isEmpty then .error .missing else s.files.placeOf (s.pathOf word)

/-- What stands where a word leads. -/
def find (s : State) (word : Bytes) : Except FileFault FileEntry :=
  if word.isEmpty then .error .missing
  else
    match s.files.find (s.pathOf word) with
    | .ok (.file content) =>
      if word.getLast? = some '/' then .error .notDirectory else .ok (.file content)
    | found => found

/-- Whether anything stands where a word leads. -/
def isThere (s : State) (word : Bytes) : Bool :=
  match s.find word with
  | .ok _ => true
  | .error _ => false

/-- Whether a directory stands where a word leads. -/
def isDirectory (s : State) (word : Bytes) : Bool :=
  match s.find word with
  | .ok e => e.isDirectory
  | .error _ => false

/-- The text of a directory. -/
def directoryText (s : State) (p : Path) : String :=
  if p.isAbsolute then p.text else "/".intercalate (s.home :: p.parts)

/-- Puts a file. -/
def putFile (s : State) (place : FilePlace) (content : List UInt8) : State :=
  { s with files := s.files.putAt place (.file content) }

/-- The bytes of a file that holds nothing but zeros, as many as any command here takes. -/
def zeros : Bytes :=
  List.replicate 131072 '\x00'

/-- The content of the file at a place. -/
def contentAt (s : State) (place : FilePlace) : Bytes :=
  match s.files.entry? place with
  | some (.file content) => content.map fun b => Char.ofNat b.toNat
  | _ => []

/-- The content of the file that a word names. -/
def readFile (s : State) (word : Bytes) : Except FileFault Bytes :=
  if word = bytesOf "/dev/zero" then .ok zeros
  else
    match s.find word with
    | .ok (.file content) => .ok (content.map fun b => Char.ofNat b.toNat)
    | .ok .device => .ok []
    | .ok .directory => .error .isDirectory
    | .ok (.closedFile _) => .error .denied
    | .ok .closedDirectory => .error .denied
    | .error fault => .error fault

/-- Whether a word names a file that is made to be run. -/
def isExecutable (s : State) (word : Bytes) : Bool :=
  match s.placeOf word with
  | .ok (.elsewhere parts) => parts.contains "bin" || s.executables.contains (.elsewhere parts)
  | .ok place => s.executables.contains place
  | .error _ => false

/-- The tests of files. -/
def tests (s : State) : FileTests where
  isFile word := match s.find word with
    | .ok e => e.isFile
    | .error _ => false
  isDirectory word := s.isDirectory word
  isDevice word := match s.find word with
    | .ok .device => true
    | _ => false
  isFilled word := match s.find word with
    | .ok (.file content) => !content.isEmpty
    | .ok (.closedFile content) => !content.isEmpty
    | .ok .directory => true
    | .ok .closedDirectory => true
    | _ => false
  isExecutable word := s.isThere word && s.isExecutable word
  areSame a b := match s.placeOf a, s.placeOf b with
    | .ok p, .ok q => s.isThere a && decide (p = q)
    | _, _ => false

/-! ## Streams -/

/-- Where a stream leads, if it is open. -/
def target? (s : State) (stream : Nat) : Option (Nat × Target) :=
  match s.streams.lookup stream with
  | some n => (s.opened[n]?).map (n, ·)
  | none => none

/-- Writes to a stream. -/
def write (s : State) (stream : Nat) (cs : Bytes) : State :=
  match s.target? stream with
  | some (_, .output) => { s with output := cs :: s.output }
  | some (_, .errors) => { s with errors := cs :: s.errors }
  | some (_, .collected place) => { s with collected := s.collected.modify place (cs :: ·) }
  | some (n, .file place position appends) =>
    match s.files.entry? place with
    | some (.file old) =>
      let from_ := if appends then old.length else position
      let new := cs.map fun c => UInt8.ofNat c.toNat
      let content := old.take from_ ++ List.replicate (from_ - old.length) 0 ++ new ++
        old.drop (from_ + new.length)
      { s.putFile place content with
        opened := s.opened.set n (.file place (from_ + new.length) appends) }
    | _ => s
  | _ => s

/-- Opens a stream that leads somewhere. -/
def open_ (s : State) (stream : Nat) (target : Target) : State :=
  { s with
    opened := s.opened ++ [target]
    streams := (stream, s.opened.length) :: s.streams.filter (·.1 != stream) }

/-- Lets a stream lead where another one leads; whether that one is open. -/
def duplicate (s : State) (stream source : Nat) : Bool × State :=
  match s.streams.lookup source with
  | some n => (true, { s with streams := (stream, n) :: s.streams.filter (·.1 != stream) })
  | none => (false, s)

/-- Closes a stream. -/
def close (s : State) (stream : Nat) : State :=
  { s with streams := s.streams.filter (·.1 != stream) }

/-- What can be read from the input. -/
def input (s : State) : Bytes :=
  match s.target? 0 with
  | some (_, .source content) => content
  | some (_, .file place position _) => (s.contentAt place).drop position
  | _ => []

/-- Passes over a number of bytes of the input. -/
def passInput (s : State) (count : Nat) : State :=
  match s.target? 0 with
  | some (n, .source content) =>
    { s with opened := s.opened.set n (.source (content.drop count)) }
  | some (n, .file place position appends) =>
    { s with opened := s.opened.set n (.file place (position + count) appends) }
  | _ => s

/-- Writes a complaint of the shell. -/
def complain (s : State) (message : String) : State :=
  let command := match s.command with
    | some name => s!"{name}: "
    | none => ""
  s.write 2 (bytesOf s!"{s.name}: {s.line}: {command}{message}\n")

/-! ## Programs -/

/-- The status of a command that is not found. -/
def notFound : Nat := 127

/-- The status of a command that is no program. -/
def notProgram : Nat := 126

/-- The status of a shell that a fault of its own ends. -/
def faulty : Nat := 2

/-- Where programs are. -/
def programHomes : List Bytes :=
  [bytesOf "/usr/bin", bytesOf "/bin"]

/-- Whether programs are looked for where they are. -/
def findsPrograms (s : State) : Bool :=
  match s.value? (bytesOf "PATH") with
  | some text => programHomes.any fun home => (pieces ':' text).contains home
  | none => true

end State
end ScriptTree.Shell
