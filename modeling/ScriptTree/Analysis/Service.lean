import ScriptTree.Analysis.Command
import ScriptTree.Analysis.Error
import ScriptTree.Config.Parser
import ScriptTree.Interpreter.Runner

/-!
The parser service: runs the parser script in one interpreter that is kept for all analyses.

The interpreter is made when it is first needed. A failure to launch it belongs to the first stage,
a failure of the command to the second. A failure that is not one of the session, as that of a wait
that is too long for the machine, is passed on as it is.
-/

namespace ScriptTree.Analysis

open Interpreter (SessionError RunnerError RunError LaunchFault TimeLimit)

/-- What the service asks of an interpreter: how one is made, whether it runs, starting it, running
a command with a limit of time, and ending it. A command that is never answered has no result. -/
structure Backend (β : Type) where
  make : ParserConfig → β
  isRunning : β → Bool
  start : β → Except RunnerError Unit × β
  run : β → String → Option Binary64 → Option (Except RunError String) × β
  dispose : β → β

/-- Why a request to the service fails: in a stage of the analysis, because no session with the
interpreter can come about, or because the machine cannot time the wait for the answer. -/
inductive ServiceFault where
  | stage (e : StageError)
  | launch (f : LaunchFault)
  | overlong (limit : TimeLimit)
  deriving DecidableEq, Repr

/-- A failure of the interpreter. One of its session is told as the failure of a stage. -/
def ServiceFault.ofRunner (tell : SessionError → StageError) : RunnerError → ServiceFault
  | .session e => .stage (tell e)
  | .launch f => .launch f

/-- A failure of a command that was run. -/
def ServiceFault.ofRun (tell : SessionError → StageError) : RunError → ServiceFault
  | .runner e => .ofRunner tell e
  | .overlong limit => .overlong limit

/-- The parser service with its script and the interpreter it has made, if it has. -/
structure Service (β : Type) where
  config : ParserConfig
  script : Path
  interpreter : Option β
  isDisposed : Bool

namespace Service

variable {β : Type}

/-- The error of a request to a service that has been disposed. -/
def disposedError : StageError :=
  { stage := startStage, message := "Parser service is disposed" }

/-- The error of an interpreter that could not be started. -/
def startError (e : SessionError) : StageError :=
  { stage := startStage, message := s!"Failed to start PowerShell: {e.message}" }

/-- The error of a command that failed. -/
def invokeError (e : SessionError) : StageError :=
  { stage := invokeStage, message := s!"PowerShell invocation failed: {e.message}" }

/-- The interpreter, made if there is none yet. -/
def ensure (b : Backend β) (s : Service β) : Except StageError β :=
  if s.isDisposed then .error disposedError
  else .ok (s.interpreter.getD (b.make s.config))

/-- Keeps the interpreter as it is after its use. -/
def keep (s : Service β) (i : β) : Service β :=
  { s with interpreter := some i }

/-- Starts the interpreter. -/
def start (b : Backend β) (s : Service β) : Except ServiceFault Unit × Service β :=
  match s.ensure b with
  | .error e => (.error (.stage e), s)
  | .ok i =>
    let (outcome, i) := b.start i
    (outcome.mapError (.ofRunner startError), s.keep i)

/-- Runs the parser script on a source in the given interpreter. -/
def run (b : Backend β) (s : Service β) (i : β) (source : String) :
    Option (Except ServiceFault String) × Service β :=
  let (outcome, i) := b.run i (parseCommand s.script.text source) s.config.timeout
  (outcome.map (·.mapError (.ofRun invokeError)), s.keep i)

/-- Runs the parser script on a source and returns what it prints. An interpreter that does not run
is started first. -/
def analyze (b : Backend β) (s : Service β) (source : String) :
    Option (Except ServiceFault String) × Service β :=
  match s.ensure b with
  | .error e => (some (.error (.stage e)), s)
  | .ok i =>
    if b.isRunning i then s.run b i source
    else
      match b.start i with
      | (.ok _, i) => s.run b i source
      | (.error e, i) => (some (.error (.ofRunner startError e)), s.keep i)

/-- Ends the service and its interpreter. -/
def dispose (b : Backend β) (s : Service β) : Service β :=
  if s.isDisposed then s
  else { s with isDisposed := true, interpreter := s.interpreter.map b.dispose }

end Service

/-- Interpreters that are runners of PowerShell on a host. The executable is looked for when the
runner is made. -/
def runnerBackend (windows : Bool) (platform : String) (host : Interpreter.Host) :
    Backend Interpreter.Runner where
  make config :=
    let executable := host.lookup.executableFor config.flavor config.executable platform
    Interpreter.Runner.new (Interpreter.Profile.powershell windows executable) host
  isRunning r := r.isRunning
  start r := r.start
  run r command timeout :=
    let (outcome, r) := r.run command (timeout.map .real)
    (outcome.map (·.map String.ofList), r)
  dispose r := r.dispose

end ScriptTree.Analysis
