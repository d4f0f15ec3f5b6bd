import ScriptTree.Number.Integer
import ScriptTree.Text.Quoted

/-!
Interpreters: how each is started, and how it is made to tell where the output of a command ends.
After every command it runs a statement that prints the sentinel; the statement is built of parts,
so that the sentinel itself does not stand in the command's text.
-/

namespace ScriptTree.Interpreter

/-- How an interpreter is started and spoken to. -/
structure Profile where
  name : String
  displayName : String
  /-- The executable and its arguments. -/
  command : List String
  /-- The mark printed after the output of each command. -/
  sentinel : String
  /-- The statement that prints the mark. -/
  suffix : String
  /-- Where to get the interpreter from. -/
  installHint : String
  /-- Variables set for the interpreter. -/
  environment : List (String × String)
  deriving DecidableEq, Repr

namespace Profile

/-- The line written for a command. -/
def wrap (p : Profile) (command : String) : String :=
  command ++ p.suffix ++ "\n"

/-- The profile with another executable and the same arguments. -/
def withExecutable (p : Profile) (executable : String) : Profile :=
  { p with command := executable :: p.command.drop 1 }

/-- The mark of the profiles below. -/
def endOfCommand : String := "__SHOWAST_END_OF_COMMAND__"

/-- The POSIX shell. -/
def sh : Profile where
  name := "sh"
  displayName := "sh"
  command := ["sh"]
  sentinel := endOfCommand
  suffix := "; printf '%s%s\\n' '__SHOWAST_END_' 'OF_COMMAND__'"
  installHint := ""
  environment := []

/-- The arguments that make PowerShell read commands from its input. -/
def powershellArguments (windows : Bool) : List String :=
  (if windows then ["-ExecutionPolicy", "Bypass"] else []) ++
    ["-NoLogo", "-NoProfile", "-NoExit", "-Command", "-"]

/-- PowerShell under the given executable. Its output is kept free of colours. -/
def powershell (windows : Bool) (executable : String) : Profile where
  name := "powershell"
  displayName := "PowerShell"
  command := executable :: powershellArguments windows
  sentinel := endOfCommand
  suffix := "; Write-Output ('__SHOWAST_END_' + 'OF_COMMAND__')"
  installHint := "https://aka.ms/install-powershell"
  environment := [("NO_COLOR", "1"), ("TERM", "dumb")]

/-- The executable of PowerShell where none is given. -/
def powershellExecutable : String := "pwsh"

/-- The profile registered under a name. -/
def ofName? (windows : Bool) (name : String) : Option Profile :=
  if name = "powershell" then some (powershell windows powershellExecutable)
  else if name = "sh" then some sh
  else none

end Profile

/-- A failure of a session with an interpreter, with the interpreter's exit code if it has one. -/
structure SessionError where
  message : String
  code : Option Int
  deriving DecidableEq, Repr

namespace SessionError

/-- A failure without exit code. -/
def plain (message : String) : SessionError := ⟨message, none⟩

/-- The failure on one line. -/
def display (e : SessionError) : String :=
  match e.code with
  | some code => s!"Session Error (exit code {code}): {e.message}"
  | none => s!"Session Error: {e.message}"

/-- The failure with its parts named. -/
def detailed (e : SessionError) : String :=
  let code := match e.code with
    | some code => Integer.text code
    | none => "None"
  s!"SessionError(message={Text.quoted e.message}, code={code})"

end SessionError
end ScriptTree.Interpreter
