import ScriptTree.Value.Graph

/-!
The documentation of a type of nodes and of its properties, and how it is read from a document.
Reading is lenient: an entry needs a name, and what else is missing or of no use counts as empty.
Only a whole number with too many digits has no text and makes reading fail.
-/

namespace ScriptTree

namespace Docs

/-- The documentation of a property: its name, its type, a text, and its values if there are only
a few. -/
structure Property where
  name : Points
  typeName : Points
  summary : Points
  values : List Points
  deriving DecidableEq, Repr

/-- The documentation of a type of nodes. -/
structure Entry where
  name : Points
  summary : Points
  properties : List Property
  deriving DecidableEq, Repr

/-- The wording for a number that has no text. -/
def unwritableMessage : String :=
  s!"Exceeds the limit ({Integer.digitLimit} digits) for integer string conversion; " ++
    "use sys.set_int_max_str_digits() to increase the limit"

/-- The text of a field, empty where the field counts as absent. There is none if a number in it is
too long. -/
def fieldText? (g : ValueGraph) (name : Points) (fields : List (Nat × Nat)) : Option Points :=
  match g.field? name fields with
  | none => some ""
  | some place => if g.isBlank place then some "" else g.text? place

/-- The values of a property: the texts of a list, or a single text. -/
def valuesOf? (g : ValueGraph) (fields : List (Nat × Nat)) : Option (List Points) :=
  match (g.field? "EnumValues" fields).map g.part with
  | some (.list items) => items.mapM g.text?
  | some (.scalar (.text s)) => some (if s.isEmpty then [] else [s])
  | _ => some []

/-- Whether some fields have a name. -/
def hasName (g : ValueGraph) (fields : List (Nat × Nat)) : Bool :=
  match g.field? "Name" fields with
  | some place => !g.isBlank place
  | none => false

/-- The fields of the record with a name at a place, if there is one. -/
def namedFields? (g : ValueGraph) (place : Nat) : Option (List (Nat × Nat)) :=
  match g.part place with
  | .record fields => if hasName g fields then some fields else none
  | _ => none

/-- The fields of the records with a name among some parts; the others are passed over. -/
def named (g : ValueGraph) (places : List Nat) : List (List (Nat × Nat)) :=
  places.filterMap (namedFields? g)

namespace Property

/-- Reads the documentation of a property. -/
def ofFields? (g : ValueGraph) (fields : List (Nat × Nat)) : Option Property := do
  let name ← fieldText? g "Name" fields
  let typeName ← fieldText? g "TypeName" fields
  let summary ← fieldText? g "Summary" fields
  let values ← valuesOf? g fields
  pure { name, typeName, summary, values }

/-- The places of the parts that the field for the properties holds; a single record counts as a
list of one. -/
def items (g : ValueGraph) (fields : List (Nat × Nat)) : List Nat :=
  match g.field? "Properties" fields with
  | none => []
  | some place =>
    match g.part place with
    | .record _ => [place]
    | .list items => items
    | _ => []

end Property

namespace Entry

/-- Reads the documentation of a type. -/
def ofFields? (g : ValueGraph) (fields : List (Nat × Nat)) : Option Entry := do
  let properties ← (named g (Property.items g fields)).mapM (Property.ofFields? g)
  let name ← fieldText? g "Name" fields
  let summary ← fieldText? g "Summary" fields
  pure { name, summary, properties }

/-- The documentation of the first property with a name. -/
def property? (e : Entry) (name : Points) : Option Property :=
  e.properties.find? (·.name == name)

end Entry
end Docs
end ScriptTree
