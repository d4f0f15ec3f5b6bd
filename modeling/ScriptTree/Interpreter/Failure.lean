import ScriptTree.File.Store
import ScriptTree.Interpreter.Profile
import ScriptTree.Interpreter.Sentinel
import ScriptTree.Interpreter.TimeLimit

/-!
Why a runner does not answer. Most failures are of the session with the interpreter and are told to
whoever waits for an answer; with some, no session can come about, and one is of the wait itself.
-/

namespace ScriptTree.Interpreter

/-- Why no session can come about: the profile has no sentinel by which the answers of a process
could be told apart, or the way to the executable is barred. -/
inductive LaunchFault where
  | emptySentinel
  | barred (path : Path) (fault : FileFault)
  deriving DecidableEq, Repr

/-- The name of a fault's kind. -/
def LaunchFault.kind : LaunchFault → String
  | .emptySentinel => "ValueError"
  | .barred _ fault => fault.kind

/-- The wording of a fault. -/
def LaunchFault.message : LaunchFault → String
  | .emptySentinel => SentinelBuffer.emptyMessage
  | .barred path fault => fault.message (Text.quoted path.text)

/-- Why a runner does not answer. -/
inductive RunnerError where
  | session (e : SessionError)
  | launch (f : LaunchFault)
  deriving DecidableEq, Repr

namespace RunnerError

/-- A failure of the session without exit code. -/
def plain (message : String) : RunnerError := .session (.plain message)

/-- The error as one of the session. -/
def toSessionError : RunnerError → SessionError
  | .session e => e
  | .launch f => .plain f.message

end RunnerError

/-- Why a command that is run has no answer: the runner gives none, or the machine cannot time the wait
for it. -/
inductive RunError where
  | runner (e : RunnerError)
  | overlong (limit : TimeLimit)
  deriving DecidableEq, Repr

namespace RunError

/-- A failure of the session without exit code. -/
def plain (message : String) : RunError := .runner (.plain message)

/-- The error as one of the session. -/
def toSessionError : RunError → SessionError
  | .runner e => e.toSessionError
  | .overlong limit => .plain limit.overlongMessage

end RunError
end ScriptTree.Interpreter
