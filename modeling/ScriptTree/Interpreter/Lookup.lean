import ScriptTree.Interpreter.Failure
import ScriptTree.Text.Blank

/-!
Where the executable of an interpreter is found: on the search path, at a path that was set, or at
one of the places where PowerShell is usually installed.
-/

namespace ScriptTree.Interpreter

/-- The two kinds of PowerShell: the one for every system, and the one that comes with Windows. -/
inductive Flavor where
  | core
  | desktop
  deriving DecidableEq, Repr

namespace Flavor

/-- The name of a flavor. -/
def name : Flavor → String
  | .core => "core"
  | .desktop => "desktop"

/-- All flavors. -/
def all : List Flavor := [.core, .desktop]

/-- The flavor with a name. -/
def ofName? (name : String) : Option Flavor :=
  all.find? (·.name == name)

end Flavor

/-- What is known of the machine: the names found on the search path, the files that can be
executed, and the files themselves. -/
structure Lookup where
  which : List (String × String)
  executables : List String
  files : FileStore
  deriving Repr

namespace Lookup

/-- The path found for a name. -/
def onPath? (l : Lookup) (name : String) : Option String :=
  match l.which.lookup name with
  | some path => if path.isEmpty then none else some path
  | none => none

/-- Whether the file at a path can be executed. -/
def isExecutable (l : Lookup) (path : String) : Bool :=
  l.executables.contains path

/-- The path found for a name if it can be executed. -/
def executableOnPath? (l : Lookup) (name : String) : Option String :=
  (l.onPath? name).filter l.isExecutable

/-- A name on the search path that only starts the true executable. -/
def snapShim : String := "/snap/bin/pwsh"

/-- The executable behind that name. -/
def snapExecutable : String := "/snap/powershell/current/opt/powershell/pwsh"

/-- Where PowerShell is usually installed. -/
def usualPlaces : List String :=
  [snapExecutable, "/usr/local/bin/pwsh", "/usr/bin/pwsh", "/opt/homebrew/bin/pwsh",
   "/opt/microsoft/powershell/7/pwsh"]

/-- The executable on Windows: the names in the order that the flavor asks for, and the first of
them if none is found. -/
def windowsExecutable (l : Lookup) (flavor : Flavor) : String :=
  let first := if flavor = .desktop then "powershell.exe" else "pwsh.exe"
  let second := if flavor = .desktop then "pwsh.exe" else "powershell.exe"
  ((l.executableOnPath? first).or (l.executableOnPath? second)).getD first

/-- The executable elsewhere: on the search path, else at a usual place, else the bare name. -/
def posixExecutable (l : Lookup) : String :=
  let usual := (usualPlaces.find? l.isExecutable).getD "pwsh"
  match l.executableOnPath? "pwsh" with
  | some found =>
    if found != snapShim then found
    else if l.isExecutable snapExecutable then snapExecutable
    else usual
  | none => usual

/-- The executable for a flavor of PowerShell. One that was set counts if it can be executed. -/
def executableFor (l : Lookup) (flavor : Flavor) (explicit : Option String) (platform : String) :
    String :=
  let found := if platform = "win32" then l.windowsExecutable flavor else l.posixExecutable
  match explicit with
  | some path => if !path.isEmpty && l.isExecutable path then path else found
  | none => found

/-- The command that starts an interpreter, with its executable found: a name with a slash of
either kind is a path, every other one is looked up on the search path. -/
def command (l : Lookup) (command : List String) (installHint : String) :
    Except RunnerError (List String) :=
  match command with
  | [] => .error (.plain "Interpreter command is empty")
  | executable :: arguments =>
    let hint := Text.strip installHint
    let advice := if hint.isEmpty then "" else s!". Install from: {hint}"
    if executable.isEmpty then .error (.plain "Interpreter executable is empty")
    else if executable.contains '/' || executable.contains '\\' then
      let path := Path.ofText executable
      match l.files.lookup path with
      | .error fault => .error (.launch (.barred path fault))
      | .ok (some _) => .ok (path.text :: arguments)
      | .ok none => .error (.plain s!"Interpreter '{executable}' not found{advice}")
    else
      match l.onPath? executable with
      | some found => .ok (found :: arguments)
      | none => .error (.plain s!"Interpreter '{executable}' not found on PATH{advice}")

end Lookup
end ScriptTree.Interpreter
