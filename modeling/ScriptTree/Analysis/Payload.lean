import ScriptTree.Analysis.Error
import ScriptTree.Json.Reader
import ScriptTree.Tree.Node

/-!
The parser's output: a document with nodes and syntax errors, a bare list of nodes, or a report
that the script could not be parsed at all. What is no node is counted and left out.
-/

namespace ScriptTree.Analysis

/-- The decoded output of the parser. -/
structure Payload where
  nodes : List Node
  errors : List SyntaxError
  /-- The number of items that are no node. -/
  skipped : Nat
  deriving DecidableEq, Repr

namespace Payload

/-- Why an output has no payload. -/
inductive Refusal where
  | empty
  | notJson (fault : Json.Fault) (position : Nat)
  | integerTooLong (digits : Nat)
  | reported (message : Points)
  | wrongType (typeName : String)
  deriving DecidableEq, Repr

/-- How a refusal ends the analysis. A number with too many digits belongs to no stage. -/
def Refusal.failure : Refusal → Failure
  | .empty => .stage ⟨jsonStage, "No output returned from the parser script"⟩
  | .notJson fault position =>
    .stage ⟨jsonStage, s!"Parser output is not valid JSON ({fault.message} at char {position})"⟩
  | .integerTooLong digits => .integerTooLong digits
  | .reported message => .stage ⟨parseStage, message⟩
  | .wrongType typeName => .stage ⟨jsonStage, s!"Unexpected parser output type: {typeName}"⟩

/-- The items of a field that should hold a list: null is empty, and a value that is no list
counts as a list of one. -/
def items : Json.Value → List Json.Value
  | .null => []
  | .list xs => xs
  | v => [v]

/-- The text of a value, or another text where the value counts as absent. -/
def textOr (default : Points) (v : Json.Value) : Points :=
  if v.isBlank then default else v.display

/-- The message of a report that the script could not be parsed. -/
def reportMessage (fields : List (Points × Json.Value)) : Points :=
  let message := textOr "Unknown parser failure" (Json.Value.fieldOrNull "message" fields)
  let kind := Text.stripped (textOr "" (Json.Value.fieldOrNull "type" fields))
  if kind.isEmpty then message else kind ++ ": " ++ message

/-- The node of an item. -/
def nodeOf? : Json.Value → Option Node
  | .object fields => Node.ofFields? fields
  | _ => none

/-- The payload with the given items. -/
def ofItems (nodes errors : List Json.Value) : Payload :=
  let read := nodes.filterMap nodeOf?
  { nodes := read
    errors := errors.filterMap SyntaxError.ofJson?
    skipped := nodes.length - read.length }

/-- The payload of a decoded output. -/
def ofJson : Json.Value → Except Refusal Payload
  | .list nodes => .ok (ofItems nodes [])
  | .object fields =>
    if (Json.Value.fieldOrNull "error" fields).isBlank then
      .ok (ofItems (items (Json.Value.fieldOrNull "nodes" fields))
        (items (Json.Value.fieldOrNull "errors" fields)))
    else .error (.reported (reportMessage fields))
  | v => .error (.wrongType v.typeName)

/-- Reads the parser's output. White space around it does not count. -/
def read (raw : String) : Except Refusal Payload :=
  let text := Text.trim raw.toList
  if text.isEmpty then .error .empty
  else
    match Json.readChars text with
    | .error (.syntaxFault fault position) => .error (.notJson fault position)
    | .error (.integerTooLong digits) => .error (.integerTooLong digits)
    | .ok v => ofJson v

end Payload
end ScriptTree.Analysis
