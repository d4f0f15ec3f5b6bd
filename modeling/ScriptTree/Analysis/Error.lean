import ScriptTree.File.Store
import ScriptTree.Number.Integer
import ScriptTree.Text.Quoted

/-!
Failures of an analysis. Most are reported with the stage that failed; the others are faults of a
caller or of the machinery and keep their own kind.
-/

namespace ScriptTree.Analysis

/-- A failure of one stage of an analysis. -/
structure StageError where
  stage : String
  message : Points
  deriving DecidableEq, Repr

/-- The stage that reaches the interpreter. -/
def startStage : String := "start"

/-- The stage that runs the parser. -/
def invokeStage : String := "invoke"

/-- The stage that decodes the parser's output. -/
def jsonStage : String := "json"

/-- The stage that parses the script. -/
def parseStage : String := "parse"

/-- The error on one line. -/
def StageError.display (e : StageError) : Points :=
  e.stage ++ ": " ++ e.message

/-- The error with its parts named, under the name of its kind. -/
def StageError.detailed (kind : String) (e : StageError) : String :=
  s!"{kind}(stage={Text.quoted e.stage}, message={Text.quoted e.message})"

/-- How an operation of a session fails. -/
inductive Failure where
  /-- A stage of the analysis failed. -/
  | stage (e : StageError)
  /-- Another analysis is running. -/
  | inProgress
  /-- The node is not one of the current analysis. -/
  | foreignNode
  /-- The parser's output holds a whole number with too many digits. -/
  | integerTooLong (digits : Nat)
  /-- The path of the script holds a null character. -/
  | nullCharacter
  /-- The parser service broke down. -/
  | crash (message : String)
  deriving DecidableEq, Repr

/-- The stage error, with the given wording, of a request that comes while an analysis is
running. -/
def busyError (message : Points) : StageError :=
  { stage := startStage, message }

/-- The stage error of a request that comes while an analysis is running. -/
def inProgressError : StageError :=
  busyError "Analysis already in progress"

/-- The name of a failure's kind. -/
def Failure.kind : Failure → String
  | .stage _ => "AnalysisError"
  | .inProgress => "AnalysisInProgressError"
  | .foreignNode => "ValueError"
  | .integerTooLong _ => "ValueError"
  | .nullCharacter => FileFault.nullCharacter.kind
  | .crash _ => "RuntimeError"

/-- The wording of a failure. -/
def Failure.message : Failure → Points
  | .stage e => e.display
  | .inProgress => inProgressError.display
  | .foreignNode => "Node does not belong to the current analysis"
  | .integerTooLong digits => Integer.tooLongMessage digits
  | .nullCharacter => FileFault.nullCharacter.message ""
  | .crash message => message

/-- The failure as one of a stage, if it is one. A session that is asked to analyse while it is
analysing fails at the first stage. -/
def Failure.stage? : Failure → Option StageError
  | .stage e => some e
  | .inProgress => some inProgressError
  | .foreignNode => none
  | .integerTooLong _ => none
  | .nullCharacter => none
  | .crash _ => none

end ScriptTree.Analysis
