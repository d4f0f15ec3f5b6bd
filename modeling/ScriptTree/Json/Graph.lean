import ScriptTree.Json.Value
import ScriptTree.Value.Graph

/-!
JSON values among the values of all documents. Each part of a JSON value has a place of its own,
after those of the parts inside it.
-/

namespace ScriptTree.Json.Value

mutual

/-- Adds the parts of a value; the answer is the place of the outermost one. -/
def addTo (parts : Array Part) : Value → Nat × Array Part
  | .null => (parts.size, parts.push (.scalar .null))
  | .bool b => (parts.size, parts.push (.scalar (.bool b)))
  | .int i => (parts.size, parts.push (.scalar (.int i)))
  | .real x => (parts.size, parts.push (.scalar (.real x)))
  | .text s => (parts.size, parts.push (.scalar (.text s)))
  | .list xs =>
    let (items, parts) := addItems parts xs
    (parts.size, parts.push (.list items))
  | .object fs =>
    let (fields, parts) := addFields parts fs
    (parts.size, parts.push (.record fields))

/-- Adds the parts of some items. -/
def addItems (parts : Array Part) : List Value → List Nat × Array Part
  | [] => ([], parts)
  | x :: xs =>
    let (item, parts) := addTo parts x
    let (items, parts) := addItems parts xs
    (item :: items, parts)

/-- Adds the parts of some fields. -/
def addFields (parts : Array Part) : List (Points × Value) → List (Nat × Nat) × Array Part
  | [] => ([], parts)
  | (k, v) :: fs =>
    let key := parts.size
    let (item, parts) := addTo (parts.push (.scalar (.text k))) v
    let (fields, parts) := addFields parts fs
    ((key, item) :: fields, parts)

end

/-- A JSON value as the value of a document. -/
def toGraph (v : Value) : ValueGraph :=
  let (root, parts) := addTo #[] v
  { parts, root }

end ScriptTree.Json.Value
