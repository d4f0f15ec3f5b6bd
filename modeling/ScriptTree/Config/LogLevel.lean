import ScriptTree.Config.Environment
import ScriptTree.Text.Quoted

/-!
The level from which on diagnostics are shown. A variable gives its name, in small or capital letters. The
name is looked up among all that the library for diagnostics has under a name in capitals; two of these
things are no levels. A name that is not known is passed over.
-/

namespace ScriptTree

/-- The names of levels. -/
def logLevels : List (String × Nat) :=
  [("CRITICAL", 50), ("FATAL", 50), ("ERROR", 40), ("WARN", 30), ("WARNING", 30), ("INFO", 20),
   ("DEBUG", 10), ("NOTSET", 0)]

/-- The level where none is named. -/
def standardLogLevel : Nat := 30

/-- Why no level is set. -/
inductive LogLevelFault where
  /-- The name is that of a text, which is itself taken for the name of a level. -/
  | unknown (text : String)
  /-- The name is that of the table of the styles. -/
  | table
  deriving DecidableEq, Repr

/-- The kind of a fault. -/
def LogLevelFault.kind : LogLevelFault → String
  | .unknown _ => "ValueError"
  | .table => "TypeError"

/-- The wording of a fault. That of the table, which it ends with, holds places in memory and is left
out. -/
def LogLevelFault.message : LogLevelFault → String
  | .unknown text => s!"Unknown level: {Text.quoted text}"
  | .table => "Level not an integer or a valid string: "

/-- The form of a diagnostic where none is set. -/
def basicLogFormat : String := "%(levelname)s:%(name)s:%(message)s"

/-- The level that the environment names. -/
def Environment.logLevel (e : Environment) : Except LogLevelFault Nat :=
  let name := Text.capitals (e.getD "SHOWAST_LOG_LEVEL" "WARNING")
  if name = "BASIC_FORMAT" then .error (.unknown basicLogFormat)
  else if name = "_STYLES" then .error .table
  else .ok ((logLevels.lookup name).getD standardLogLevel)

end ScriptTree
