import ScriptTree.Json.Writer
import ScriptTree.Log.Redact
import ScriptTree.Log.Trace
import ScriptTree.Text.Blank
import ScriptTree.Text.Case

/-!
Events of the log. An event is a list of fields; before it is written it gets the time, the trace,
the operation and a level where it has none of its own.
-/

namespace ScriptTree.Log

/-- The fields of an event. -/
abbrev Fields := List (Points × Json.Value)

/-- What happens in a session with an interpreter and in an analysis. -/
inductive Event where
  | sessionStart (interpreter : String) (command : List String) (latency : Int) (pid : Option Int)
  | sessionStop (interpreter reason : String)
  | sessionError (interpreter error errorType : String) (exitCode : Option Int)
  | invokeError (interpreter error errorType : String)
  | stderrDiscarded (interpreter stderr : String) (outputLength : Int)
  | analysisComplete (source : Option String) (epoch nodes errors orphans : Int) (latency : Int)
  | analysisError (source : Option String) (stage : String) (error : Points) (latency : Int)
  deriving DecidableEq, Repr

namespace Event

/-- A number, or null. -/
def number? : Option Int → Json.Value
  | some i => .int i
  | none => .null

/-- A text, or null. -/
def text? : Option String → Json.Value
  | some s => .text s
  | none => .null

/-- The fields of an event. -/
def fields : Event → Fields
  | .sessionStart interpreter command latency pid =>
    [("kind", .text "session_start"), ("level", .text "info"), ("interpreter", .text interpreter),
     ("command_preview", .text (command.headD "")), ("pid", number? pid),
     ("latency_ms", .int latency)]
  | .sessionStop interpreter reason =>
    [("kind", .text "session_stop"), ("level", .text "info"), ("interpreter", .text interpreter),
     ("reason", .text reason)]
  | .sessionError interpreter error errorType exitCode =>
    [("kind", .text "session_error"), ("level", .text "error"), ("interpreter", .text interpreter),
     ("error", .text error), ("error_type", .text errorType), ("exit_code", number? exitCode)]
  | .invokeError interpreter error errorType =>
    [("kind", .text "invoke_error"), ("level", .text "warning"), ("interpreter", .text interpreter),
     ("error", .text error), ("error_type", .text errorType)]
  | .stderrDiscarded interpreter stderr outputLength =>
    [("kind", .text "stderr_discarded"), ("level", .text "warning"),
     ("interpreter", .text interpreter), ("stderr", .text stderr),
     ("output_chars", .int outputLength)]
  | .analysisComplete source epoch nodes errors orphans latency =>
    [("kind", .text "analysis_complete"), ("level", .text "info"), ("source_id", text? source),
     ("epoch", .int epoch), ("node_count", .int nodes), ("parse_error_count", .int errors),
     ("orphan_count", .int orphans), ("latency_ms", .int latency)]
  | .analysisError source stage error latency =>
    [("kind", .text "analysis_error"), ("level", .text "error"), ("source_id", text? source),
     ("stage", .text stage), ("error", .text error), ("latency_ms", .int latency)]

end Event

/-- The levels of importance, from low to high. -/
def levels : List String := ["debug", "info", "warning", "error"]

/-- The level that a value names, in any case and with white space around it. -/
def levelOf (v : Json.Value) : String :=
  match v with
  | .null => "info"
  | v =>
    let name := Text.lowered (Text.stripped v.display)
    let other := if name = "warn" then "warning" else "info"
    (levels.find? (name = Points.ofString ·)).getD other

/-- The level of an event that names none: an event whose kind ends in `error` is an error. -/
def levelOfKind (fields : Fields) : String :=
  let kind :=
    match Json.Value.field? "kind" fields with
    | some v => v.display
    | none => []
  if (Points.ofString "error").isSuffixOf (Text.lowered kind) then "error" else "info"

/-- Adds a field unless it is there. -/
def addField (key : Points) (v : Json.Value) (fields : Fields) : Fields :=
  if (Json.Value.field? key fields).isSome then fields else fields ++ [(key, v)]

/-- The fields with time, trace, operation and level, and the tracer after that. -/
def complete (now : Moment) (tracer : Tracer) (fields : Fields) : Fields × Tracer :=
  let fields := addField "timestamp" (.text (now.text "T")) fields
  let hasTrace := (Json.Value.field? "trace_id" fields).isSome
  let tracer := if hasTrace then tracer else tracer.ensure
  let fields := addField "trace_id" (.text tracer.trace.id) fields
  let operation := tracer.trace.operation
  let fields := if operation.isEmpty then fields else addField "operation" (.text operation) fields
  let fields := addField "level" (.text (levelOfKind fields)) fields
  (Json.Value.insert "level" (.text (levelOf (Json.Value.fieldOrNull "level" fields))) fields,
    tracer)

/-- The fields whose texts are sensitive. -/
def sensitiveKeys : List Points := ["error", "stderr"]

/-- What stands in the log for the value under a key where sensitive texts are replaced. A text that
cannot be encoded has no digest, so that nothing can stand for it. -/
def redact? (key : Points) : Json.Value → Option Json.Value
  | .text s =>
    if sensitiveKeys.contains key then s.legible?.map fun s => .text (placeholder s)
    else some (.text s)
  | v => some v

/-- The fields as the log may show them, if it may. -/
def sanitize? (mode : Mode) (fields : Fields) : Option Fields :=
  if mode.redacts then fields.mapM fun (key, v) => (redact? key v).map (key, ·) else some fields

/-- Whether an event is kept: one for debugging only if it is in the sample. -/
def isKept (settings : Settings) (fields : Fields) : Bool :=
  let isDebug := Json.Value.field? "level" fields matches some (.text "debug")
  !isDebug || settings.keepsSample

/-- The line of an event, if the event is kept and has one, and the tracer after it. -/
def lineOf (settings : Settings) (tracer : Tracer) (fields : Fields) : Option Points × Tracer :=
  match settings.mode with
  | .off => (none, tracer)
  | mode =>
    let (fields, tracer) := complete settings.now tracer fields
    if isKept settings fields then ((sanitize? mode fields).map (Json.write <| .object ·), tracer)
    else (none, tracer)

/-- The lines of some events of one thread, as far as they can be encoded, and the tracer after them. -/
def linesOf (settings : Settings) (tracer : Tracer) : List Event → List String × Tracer
  | [] => ([], tracer)
  | event :: events =>
    let (first, tracer) := lineOf settings tracer event.fields
    let (rest, tracer) := linesOf settings tracer events
    ((first.bind Points.legible?).toList ++ rest, tracer)

end ScriptTree.Log
