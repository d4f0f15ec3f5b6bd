import ScriptTree.Analysis.Session
import ScriptTree.CommandLine.Usage
import ScriptTree.Docs.Catalog
import ScriptTree.Docs.Markup
import ScriptTree.Json.Writer

/-!
What the commands print about an analysis: the outline of its trees, the same as JSON, and one node
with what is known about it.
-/

namespace ScriptTree

namespace Tree

/-- Whether a depth is beyond the limit. -/
def isBeyond (limit : Option Nat) (depth : Nat) : Bool :=
  limit.any (· < depth)

/-- The line of the node at the top: two spaces for each step from its root, and its label. -/
def line (t : Tree) : Points :=
  CommandLine.spaces (2 * t.depth) ++ t.value.label

mutual

/-- The lines of a tree, down to a depth. Below a node that is too deep nothing is looked at. -/
def outline (limit : Option Nat) : Tree → List Points
  | .node n depth ts =>
    if isBeyond limit depth then []
    else (Tree.node n depth ts).line :: outlineAll limit ts

/-- The lines of some trees, one tree after the other. -/
def outlineAll (limit : Option Nat) : List Tree → List Points
  | [] => []
  | t :: ts => outline limit t ++ outlineAll limit ts

end

end Tree

namespace CommandLine

/-- The text of some lines. -/
def textOf (lines : List Points) : Points :=
  lines.flatMap (· ++ "\n")

/-- The lines on the syntax errors, if there are any. -/
def errorLines (errors : List SyntaxError) : List Points :=
  if errors.isEmpty then []
  else
    let heading : List Points := ["", s!"Parse errors ({errors.length}):"]
    heading ++ errors.map fun e => Points.ofString "  " ++ e.display

/-- An analysis in outline. -/
def outlineOf (limit : Option Nat) (s : Analysis.Snapshot) : List Points :=
  Tree.outlineAll limit s.forest.roots ++ errorLines s.errors

/-- An analysis as JSON. -/
def jsonOf (s : Analysis.Snapshot) : Json.Value :=
  .object
    [("source", (s.source.map (Json.Value.text ·)).getD .null),
     ("nodes", .list (Tree.toJsonAll s.forest.roots)),
     ("errors", .list (s.errors.map SyntaxError.toJson))]

/-- What is said where no node is. -/
def nothingAt (line column : Nat) : String :=
  s!"No AST node found at {line}:{column}"

/-- The lines on a property of a node of the given kind. -/
def propertyLines (docs : Docs.Catalog) (kind : Points) (p : NodeProperty) : List Points :=
  let typeName := (docs.propertyType? kind p.name).getD p.typeName
  let summary := (docs.propertySummary? kind p.name).map fun s => spaces 6 ++ Docs.shown s
  ("  " ++ p.name ++ " (" ++ typeName ++ ") = " ++ Text.singleLine p.value) :: summary.toList

/-- The lines on a node. -/
def descriptionOf (docs : Docs.Catalog) (n : Node) : List Points :=
  let summary := (docs.summary? n.kind).map fun s => spaces 2 ++ Docs.shown s
  let properties :=
    if n.properties.isEmpty then []
    else (["", "Properties:"] : List Points) ++ n.properties.flatMap (propertyLines docs n.kind)
  [(docs.displayName? n.kind).getD n.kind] ++ summary.toList ++
    (["Location: " ++ n.location, "Text: " ++ Text.singleLine n.text] : List Points) ++ properties

end CommandLine
end ScriptTree
