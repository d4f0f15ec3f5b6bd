import ScriptTree.Text.Cut
import ScriptTree.Tree.Lenient

/-!
The nodes of a script's syntax tree as they come from the parser: flat, each with the hash that
identifies it and its parent's. Reading is lenient, and only the node's own hash is required.
-/

namespace ScriptTree

/-- The longest text of a node that is kept whole. -/
def nodeTextLimit : Int := 100

/-- The longest value of a property that is kept whole. -/
def propertyValueLimit : Int := 200

/-- A property of a node: its name, its value as text and the value's type. -/
structure NodeProperty where
  name : Points
  value : Points
  typeName : Points
  deriving DecidableEq, Repr

/-- A node of the tree. Lines and columns are counted from one. -/
structure Node where
  hash : Int
  parent : Option Int
  kind : Points
  text : Points
  extent : Points
  startLine : Int
  startColumn : Int
  endLine : Int
  endColumn : Int
  textLength : Int
  properties : List NodeProperty
  id : Points
  deriving DecidableEq, Repr

namespace NodeProperty

/-- Reads a property; it is an object, and its name is not empty. -/
def ofJson? : Json.Value → Option NodeProperty
  | .object fields =>
    let name := (Json.Value.fieldOrNull "Name" fields).toText
    if name.isEmpty then none
    else some
      { name
        value := (Json.Value.fieldOrNull "Value" fields).toText
        typeName := (Json.Value.fieldOrNull "TypeName" fields).toText }
  | _ => none

/-- Writes a property. -/
def toJson (p : NodeProperty) : Json.Value :=
  .object [("Name", .text p.name), ("Value", .text p.value), ("TypeName", .text p.typeName)]

/-- The property with its value cut to the limit. -/
def capped (p : NodeProperty) : NodeProperty :=
  { p with value := Text.cut p.value propertyValueLimit }

end NodeProperty

namespace Node

/-- The items of the field that holds the properties; a single object counts as a list of one. -/
def propertyItems : Json.Value → List Json.Value
  | .object fields => [.object fields]
  | .list items => items
  | _ => []

/-- Reads a node from the fields of its object; without a usable hash there is none. -/
def ofFields? (fields : List (Points × Json.Value)) : Option Node :=
  let get (key : Points) := Json.Value.fieldOrNull key fields
  (get "hashCode").toInt?.map fun hash =>
    { hash
      parent := (get "parentHashCode").toInt?
      kind := (get "type").toText
      text := (get "text").toText
      extent := (get "extentString").toText
      startLine := (get "StartLineNumber").toInt
      startColumn := (get "StartColumnNumber").toInt
      endLine := (get "EndLineNumber").toInt
      endColumn := (get "EndColumnNumber").toInt
      textLength := (get "textLength").toInt
      properties := (propertyItems (get "properties")).filterMap NodeProperty.ofJson?
      id := (get "id").toText }

/-- The fields of a node's object. -/
def toFields (n : Node) : List (Points × Json.Value) :=
  [("id", .text n.id),
   ("hashCode", .int n.hash),
   ("parentHashCode", match n.parent with | some p => .int p | none => .null),
   ("type", .text n.kind),
   ("text", .text n.text),
   ("extentString", .text n.extent),
   ("StartLineNumber", .int n.startLine),
   ("StartColumnNumber", .int n.startColumn),
   ("EndLineNumber", .int n.endLine),
   ("EndColumnNumber", .int n.endColumn),
   ("textLength", .int n.textLength),
   ("properties", .list (n.properties.map NodeProperty.toJson))]

/-- Writes a node. -/
def toJson (n : Node) : Json.Value :=
  .object n.toFields

/-- The node with its text and its properties' values cut to their limits. -/
def capped (n : Node) : Node :=
  { n with
    text := Text.cut n.text nodeTextLimit
    properties := n.properties.map NodeProperty.capped }

/-- A node without parent is a root. -/
def isRoot (n : Node) : Bool :=
  n.parent.isNone

/-- Whether a place lies in the node's extent, both ends included. -/
def contains (n : Node) (line column : Int) : Bool :=
  (n.startLine < line || (n.startLine == line && n.startColumn ≤ column)) &&
    (line < n.endLine || (n.endLine == line && column ≤ n.endColumn))

/-- The first property with a name. -/
def property? (n : Node) (name : Points) : Option NodeProperty :=
  n.properties.find? (·.name == name)

/-- Where the node starts and ends. -/
def location (n : Node) : String :=
  s!"{n.startLine}:{n.startColumn}-{n.endLine}:{n.endColumn}"

/-- The node on one line: kind, location and text. -/
def label (n : Node) : Points :=
  Text.stripRight (n.kind ++ " [" ++ n.location ++ "] " ++ Text.singleLine n.text)

end Node

/-- A syntax error that the parser reports beside the nodes. -/
structure SyntaxError where
  message : Points
  startLine : Int
  startColumn : Int
  endLine : Int
  endColumn : Int
  deriving DecidableEq, Repr

namespace SyntaxError

/-- Reads a syntax error from an object. -/
def ofJson? : Json.Value → Option SyntaxError
  | .object fields =>
    let get (key : Points) := Json.Value.fieldOrNull key fields
    some
      { message := (get "message").toText
        startLine := (get "startLine").toInt
        startColumn := (get "startColumn").toInt
        endLine := (get "endLine").toInt
        endColumn := (get "endColumn").toInt }
  | _ => none

/-- Writes a syntax error. -/
def toJson (e : SyntaxError) : Json.Value :=
  .object
    [("message", .text e.message),
     ("startLine", .int e.startLine),
     ("startColumn", .int e.startColumn),
     ("endLine", .int e.endLine),
     ("endColumn", .int e.endColumn)]

/-- The error on one line: place and message. -/
def display (e : SyntaxError) : Points :=
  s!"{e.startLine}:{e.startColumn}: " ++ e.message

end SyntaxError
end ScriptTree
