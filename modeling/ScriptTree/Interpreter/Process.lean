import ScriptTree.Interpreter.Transport

/-!
An interpreter process as its runner meets it: whether it lives, whether its output can still be
read, what its input does with a line, and the transport that was made for it.
-/

namespace ScriptTree.Interpreter

/-- What a process prints, and the code it then ends with, if it does. -/
structure Emission where
  stdout : List UInt8
  stderr : List UInt8
  exit : Option Int
  deriving Repr

/-- A process. -/
structure Process where
  pid : Nat
  /-- The generation that its runner gave it. -/
  generation : Nat
  /-- The exit code of a process that has ended. -/
  exitCode : Option Int
  /-- Whether its output is still read. -/
  isRead : Bool
  input : Input
  inputIsClosed : Bool
  /-- Whether killing it makes it end. -/
  isKillable : Bool
  transport : Transport

namespace Process

/-- A process just started. -/
def start (pid generation : Nat) (input : Input) (transport : Transport) : Process :=
  { pid, generation, exitCode := none, isRead := true, input, inputIsClosed := false,
    isKillable := true, transport }

/-- Kills a process: its streams hang up, and it ends with the code of the signal. -/
def kill (p : Process) : Process :=
  { p with
    isRead := false
    exitCode := match p.exitCode with
      | some code => some code
      | none => if p.isKillable then some (-9) else none }

/-- Closes the input of a process that has one. -/
def closeInput (p : Process) : Process :=
  { p with inputIsClosed := p.inputIsClosed || p.input != .absent }

/-- Whether the process runs. -/
def isAlive (p : Process) : Bool :=
  p.exitCode.isNone

end Process
end ScriptTree.Interpreter
