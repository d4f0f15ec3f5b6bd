import ScriptTree.CommandLine.Words
import ScriptTree.File.Store
import ScriptTree.Number.Integer
import ScriptTree.Text.Letter

/-!
What a command line asks for. Help and the version go before everything else that the options of
one scope ask for; values are read in the order of the options, then of the words. The order and the
checks stand for those of click.
-/

namespace ScriptTree.CommandLine

/-- A command with its values. -/
inductive Task where
  | analyze (path : Path) (asJson : Bool) (depth : Option Nat)
  | locate (path : Path) (line column : Nat)
  | describe (path : Path) (line column : Nat)
  deriving DecidableEq, Repr

/-- The script of a task. -/
def Task.path : Task → Path
  | .analyze path _ _ => path
  | .locate path _ _ => path
  | .describe path _ _ => path

/-- What a command line asks for. -/
inductive Request where
  | help (scope : Scope)
  | version
  | run (task : Task)
  deriving DecidableEq, Repr

/-- Whether the text of a path can only be that of a directory. -/
def endsAtDirectory (word : String) : Bool :=
  word.endsWith "/" || word.endsWith "/."

/-- The path of a file that exists. -/
def fileOf (files : FileStore) (word : String) : Except ValueFault Path :=
  let path := Path.ofText word
  match files.find path with
  | .error .nullCharacter => .error .nullCharacter
  | .error _ => .error (.noFile word)
  | .ok e =>
    if word.isEmpty || FileStore.pathLimit ≤ word.utf8ByteSize then .error (.noFile word)
    else if e.isDirectory then .error (.isDirectory word)
    else if endsAtDirectory word then .error (.noFile word)
    else if e matches .closedFile _ then .error (.notReadable word)
    else .ok path

/-- A number that is at least `least`. -/
def numberOf (least : Nat) (word : String) : Except ValueFault Nat :=
  match Integer.read word with
  | .error _ => .error (.notNumber word)
  | .ok n => if n < least then .error (.tooSmall n least) else .ok n.toNat

/-- The value of a word that is called `name` in errors. -/
def valueOf {α : Type} (c : Command) (name : String) (read : String → Except ValueFault α)
    (word : String) : Except UsageError α :=
  (read word).mapError fun fault => ⟨.command c, .badValue name fault⟩

/-- The value of the word that a command takes at a place. -/
def operand {α : Type} (c : Command) (words : List String) (place : Nat)
    (read : String → Except ValueFault α) : Except UsageError α :=
  let name := c.operands.getD place ""
  match words[place]? with
  | none => .error ⟨.command c, .operandMissing name⟩
  | some word => valueOf c name read word

/-- Refuses words beyond those that a command takes. -/
def noMore (c : Command) (words : List String) : Except UsageError Unit :=
  match words.drop c.operands.length with
  | [] => .ok ()
  | extra => .error ⟨.command c, .tooManyWords extra⟩

/-- The path, line and column that a command takes. -/
def placeOf (files : FileStore) (c : Command) (words : List String) :
    Except UsageError (Path × Nat × Nat) := do
  let path ← operand c words 0 (fileOf files)
  let line ← operand c words 1 (numberOf 1)
  let column ← operand c words 2 (numberOf 1)
  noMore c words
  pure (path, line, column)

/-- The task of a command whose words are parted. -/
def Task.ofWords (files : FileStore) (c : Command) (w : Words) : Except UsageError Task :=
  match c with
  | .analyze => do
    let depth ← (w.value? depthSwitch).mapM (valueOf c depthSwitch.name (numberOf 0))
    let path ← operand c w.others 0 (fileOf files)
    noMore c w.others
    pure (.analyze path (w.has jsonSwitch) depth)
  | .locate => do
    let (path, line, column) ← placeOf files c w.others
    pure (.locate path line column)
  | .describe => do
    let (path, line, column) ← placeOf files c w.others
    pure (.describe path line column)

namespace Request

/-- What the words after a command ask for. -/
def ofCommand (files : FileStore) (c : Command) (words : List String) :
    Except UsageError Request := do
  let w ← Words.part (.command c) words
  if w.has helpSwitch then pure (.help (.command c))
  else pure (.run (← Task.ofWords files c w))

/-- Whether a word starts like an option of some other program. -/
def startsWithSign (word : String) : Bool :=
  match word.toList with
  | c :: _ => !Text.isLetterOrNumber c
  | [] => false

/-- What a command line asks for. Without words, or with a sign in the place of a command, it is
the help of the program. -/
def ofWords (files : FileStore) (words : List String) : Except UsageError Request := do
  if words.isEmpty then pure (.help .program)
  else
    let w ← Words.part .program words
    match w.given, w.others with
    | (s, _) :: _, _ => pure (if s = versionSwitch then .version else .help .program)
    | [], [] => .error ⟨.program, .commandMissing⟩
    | [], word :: rest =>
      match Command.ofName? word with
      | some c => ofCommand files c rest
      | none =>
        if startsWithSign word then pure (.help .program)
        else .error ⟨.program, .unknownCommand word⟩

end Request

/-- Whether the words of a command line get as far as a command: it is the command's own words then that
are wrong, or it is the command's help that is asked for. -/
def reachesCommand : Except UsageError Request → Bool
  | .error e => e.scope != .program
  | .ok (.help scope) => scope != .program
  | .ok .version => false
  | .ok (.run _) => true

end ScriptTree.CommandLine
