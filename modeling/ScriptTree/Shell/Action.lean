import ScriptTree.Shell.State
import ScriptTree.Shell.Utility

/-!
What commands do: they change the state of the shell, and may leave the commands around them.
-/

namespace ScriptTree.Shell

/-- What a command does. -/
abbrev Action (α : Type) := ExceptT Leave (StateM State) α

/-- Sets the status. -/
def setStatus (status : Nat) : Action Unit :=
  modify fun s => { s with status }

/-- Sets the status to that of a yes or no. -/
def setTruth (b : Bool) : Action Unit :=
  setStatus (if b then 0 else 1)

/-- Does something and tells how it ended. -/
def observing (action : Action Unit) : Action (Except Leave Unit) := do
  try
    action
    pure (.ok ())
  catch leave => pure (.error leave)

/-- Complains and sets the status. -/
def complain (status : Nat) (message : String) : Action Unit :=
  modify fun s => { s.complain message with status }

/-- Writes a line of a complaint as it is. -/
def remark (status : Nat) (line : String) : Action Unit :=
  modify fun s => { s.write 2 (bytesOf (line ++ "\n")) with status }

/-- Complains of an error, which ends the command in progress and may end the shell. -/
def collapse {α : Type} (message : String) : Action α := do
  complain State.faulty message
  throw .failing

/-- Writes to the output, if it is open. -/
def emit (cs : Bytes) : Action Unit := do
  let s ← get
  match s.target? 1, s.command with
  | some _, _ => set (s.write 1 cs)
  | none, some name => complain 1 s!"{name}: I/O error"
  | none, none => setStatus 1

/-- Writes to the output; the status is that of success if it is open. -/
def emitText (cs : Bytes) : Action Unit := do
  setStatus 0
  emit cs

/-- Takes over the result of a program. -/
def finish (r : Result) : Action Unit := do
  r.complaints.forM (remark r.status)
  modify fun s =>
    let s := if r.tookInput then s.passInput s.input.length else s
    { s.write 1 r.output with status := r.status }

/-! ## Words of commands -/

/-- A number among the words of a command. -/
def numberIn (word : Bytes) : Action Nat :=
  if !word.isEmpty && word.all Char.isDigit && decimal word ≤ 2147483647 then pure (decimal word)
  else collapse s!"Illegal number: {String.ofList word}"

/-- The letters after dashes at the start of the words of a command, of which only some are known,
and the words after them. -/
def takeLetters (known : Bytes) : List Bytes → Action (Bytes × List Bytes)
  | ['-', '-'] :: words => pure ([], words)
  | ('-' :: c :: cs) :: words => do
    match (c :: cs).find? (!known.contains ·) with
    | some bad => collapse s!"Illegal option -{bad}"
    | none =>
      let (letters, words) ← takeLetters known words
      pure (c :: cs ++ letters, words)
  | words => pure ([], words)

/-- The name and value of a word with an equals sign. -/
def parted (word : Bytes) : Bytes × Option Bytes :=
  let name := word.takeWhile (· != '=')
  match word.drop name.length with
  | _ :: value => (name, some value)
  | [] => (name, none)

/-! ## Variables -/

/-- Refuses what is no name. -/
def checkName (name : Bytes) : Action Unit := do
  if !isName name then collapse s!"{String.ofList name}: bad variable name"

/-- Refuses to change a variable whose value stays. -/
def checkChange (name : Bytes) : Action Unit := do
  if (← get).constants.contains name then collapse s!"{String.ofList name}: is read only"

/-- Gives a variable a value. -/
def assignTo (name value : Bytes) : Action Unit := do
  checkName name
  checkChange name
  modify (·.assign name value)

/-- A text between quotes from which a shell reads it again: single quotes, and double ones for single
quotes in it; `fuel` is its length. -/
def quotedFrom : Nat → Bytes → Bytes
  | 0, _ => []
  | fuel + 1, cs =>
    let part := cs.takeWhile (· != '\'')
    let rest := cs.drop part.length
    let quotes := rest.takeWhile (· = '\'')
    let after := rest.drop quotes.length
    '\'' :: part ++ ['\''] ++
      (if quotes.isEmpty then [] else '"' :: quotes ++ ['"']) ++
      (if after.isEmpty then [] else quotedFrom fuel after)

/-- A text between quotes from which a shell reads it again. -/
def quotedBytes (cs : Bytes) : Bytes :=
  quotedFrom (cs.length + 1) cs

/-- The lines that tell variables and their values, in the order of their names. -/
def variableLines (before : String) (values : List (Bytes × Option Bytes)) : Bytes :=
  let sorted := values.mergeSort fun a b => !decide (b.1 < a.1)
  ofLines (sorted.map fun v =>
    bytesOf before ++ v.1 ++ ((v.2.map fun value => '=' :: quotedBytes value).getD []))

end ScriptTree.Shell
