import ScriptTree.Value.Graph
import ScriptTree.Yaml.Merge
import ScriptTree.Yaml.Notation

/-!
The values that YAML documents hold. The tag of a node gives the type of its value; only the common
tags are known. A scalar is read when it is met. A collection has its place at once and is filled
later, those met first being filled first, so it may be inside itself.

All this stands for the library that the program loads YAML with, and only running the program needs it:
what is shown of the program holds with any reader of YAML.
-/

namespace ScriptTree.Yaml

/-- The types of collections. -/
inductive CollectionType where
  | list
  /-- A list of pairs, each given by a mapping with one entry. -/
  | pairs
  | set
  | record
  deriving DecidableEq, Repr

/-- The type of collection that a tag promises. -/
def collectionTypeOf? (tag : String) : Option CollectionType :=
  if tag == commonTag "seq" then some .list
  else if tag == commonTag "omap" || tag == commonTag "pairs" then some .pairs
  else if tag == commonTag "set" then some .set
  else if tag == commonTag "map" then some .record
  else none

/-- The part that a collection is before it is filled. -/
def CollectionType.emptyPart : CollectionType → Part
  | .list => .list []
  | .pairs => .list []
  | .set => .set []
  | .record => .record []

/-- What is known while a value is made of nodes. -/
structure Builder where
  nodes : Array Node
  /-- A number above that of the merge keys. -/
  mergeLimit : Nat
  /-- The places of the values of nodes, as far as they have one. -/
  places : Array (Option Nat)
  parts : Array Part
  /-- The value of the word for what is not a number, which is the same wherever it stands. -/
  notNumber : Option Nat
  /-- The collections that are not yet filled, by node and place, the last one met first. -/
  waiting : List (Nat × Nat)

namespace Builder

/-- The builder before all. -/
def start (g : NodeGraph) : Builder :=
  { nodes := g.nodes, mergeLimit := mergeCount g.nodes + 1
    places := Array.replicate g.nodes.size none, parts := #[], notNumber := none, waiting := [] }

/-- Adds a part. -/
def push (b : Builder) (part : Part) : Nat × Builder :=
  (b.parts.size, { b with parts := b.parts.push part })

/-- The text of a scalar. A mapping with the equals sign as key stands for the scalar under it. -/
def scalarText (nodes : Array Node) : Nat → Nat → Except Fault String
  | 0, _ => .error .wrongKind
  | fuel + 1, place =>
    match nodeAt nodes place with
    | .scalar _ text => .ok text
    | .sequence _ _ => .error .wrongKind
    | .mapping _ entries =>
      match entries.find? fun e => (nodeAt nodes e.1).tag == Kind.value.tag with
      | some (_, value) => scalarText nodes fuel value
      | none => .error .wrongKind

/-- The value that a text gives for a tag; the tag must be that of a scalar. -/
def readScalar (tag text : String) : Except Fault Scalar :=
  if tag == Kind.text.tag then .ok (.text text)
  else if tag == Kind.null.tag then .ok .null
  else if tag == Kind.bool.tag then (readBool text).map .bool
  else if tag == Kind.int.tag then (readInt text).map .int
  else if tag == Kind.real.tag then (readReal text).map .real
  else if tag == Kind.moment.tag then readMoment text
  else if tag == commonTag "binary" then readBytes text
  else .error (.unknownTag tag)

/-- The tags of scalars. -/
def scalarTags : List String :=
  [Kind.text.tag, Kind.null.tag, Kind.bool.tag, Kind.int.tag, Kind.real.tag, Kind.moment.tag,
   commonTag "binary"]

/-- The value of the scalar that a node is or stands for. A date may not be given by a mapping. -/
def scalarOf (b : Builder) (node : Nat) : Except Fault (Scalar × Bool) := do
  let tag := (nodeAt b.nodes node).tag
  if !scalarTags.contains tag then throw (.unknownTag tag)
  let text ← scalarText b.nodes (b.nodes.size + 1) node
  if tag == Kind.moment.tag then
    if let .mapping _ _ := nodeAt b.nodes node then throw (.badValue .dateInMapping)
  let value ← readScalar tag text
  pure (value, tag == Kind.real.tag && isNotNumber text)

/-- The place of the value of a node that has none yet. -/
def place (b : Builder) (node : Nat) : Except Fault (Nat × Builder) := do
  match collectionTypeOf? (nodeAt b.nodes node).tag with
  | some type =>
    let (place, b) := b.push type.emptyPart
    pure (place, { b with waiting := (node, place) :: b.waiting })
  | none =>
    let (value, isNotNumber) ← b.scalarOf node
    match isNotNumber, b.notNumber with
    | true, some place => pure (place, b)
    | true, none =>
      let (place, b) := b.push (.scalar value)
      pure (place, { b with notNumber := some place })
    | false, _ => pure (b.push (.scalar value))

/-- The place of the value of a node. -/
def value (b : Builder) (node : Nat) : Except Fault (Nat × Builder) := do
  match (b.places[node]?).join with
  | some place => pure (place, b)
  | none =>
    let (place, b) ← b.place node
    pure (place, { b with places := b.places.setIfInBounds node (some place) })

/-- The graph of what there is so far. -/
def graph (b : Builder) (root : Nat) : ValueGraph :=
  { parts := b.parts, root }

/-- The places of the values of some nodes. -/
def values (b : Builder) : List Nat → Except Fault (List Nat × Builder)
  | [] => .ok ([], b)
  | node :: nodes => do
    let (place, b) ← b.value node
    let (places, b) ← b.values nodes
    pure (place :: places, b)

/-- The places of the pairs that some nodes are; each must be a mapping with one entry. -/
def pairs (b : Builder) : List Nat → Except Fault (List Nat × Builder)
  | [] => .ok ([], b)
  | node :: nodes => do
    match nodeAt b.nodes node with
    | .mapping _ [(key, v)] => do
      let (key, b) ← b.value key
      let (v, b) ← b.value v
      let (place, b) := b.push (.pair key v)
      let (places, b) ← b.pairs nodes
      pure (place :: places, b)
    | _ => throw .wrongKind

/-- Whether a part can be a key. -/
def isUsableKey : Part → Bool
  | .scalar _ => true
  | _ => false

/-- Puts a value under a key; a key that is there keeps its place. -/
def putField (g : ValueGraph) (key v : Nat) : List (Nat × Nat) → List (Nat × Nat)
  | [] => [(key, v)]
  | (k, w) :: rest =>
    if g.sameKey k key then (k, v) :: rest else (k, w) :: putField g key v rest

/-- The fields that some entries give, added to `fields`; of those with one key the last counts. -/
def fields (b : Builder) (found : List (Nat × Nat)) :
    List (Nat × Nat) → Except Fault (List (Nat × Nat) × Builder)
  | [] => .ok (found, b)
  | (key, v) :: rest => do
    let (key, b) ← b.value key
    if !isUsableKey ((b.graph 0).part key) then throw .unusableKey
    let (v, b) ← b.value v
    b.fields (putField (b.graph 0) key v found) rest

/-- The fields of a mapping, which is merged first. -/
def fieldsOf (b : Builder) (node : Nat) : Except Fault (List (Nat × Nat) × Builder) := do
  let nodes ← mergeFrom b.mergeLimit [] node b.nodes
  match nodeAt nodes node with
  | .mapping _ entries => fields { b with nodes } [] entries
  | _ => throw .wrongKind

/-- The members of a set in the order in which they are listed. Only numbers have an order of
their own. -/
def listed (b : Builder) (members : List Nat) : List Nat :=
  let keyOf? (place : Nat) : Option (Int × Nat) :=
    match (b.graph 0).part place with
    | .scalar s => (Slots.keyOf? s).map (·, place)
    | _ => none
  match members.mapM keyOf? with
  | some keyed => Slots.ordered keyed
  | none => members

/-- Fills the collection that a node is. -/
def fill (b : Builder) (node place : Nat) : Except Fault Builder := do
  let put (b : Builder) (part : Part) : Builder :=
    { b with parts := b.parts.setIfInBounds place part }
  match collectionTypeOf? (nodeAt b.nodes node).tag, nodeAt b.nodes node with
  | some .list, .sequence _ items => do
    let (items, b) ← b.values items
    pure (put b (.list items))
  | some .pairs, .sequence _ items => do
    let (items, b) ← b.pairs items
    pure (put b (.list items))
  | some .set, _ => do
    let (found, b) ← b.fieldsOf node
    pure (put b (.set (b.listed (found.map Prod.fst))))
  | some .record, _ => do
    let (found, b) ← b.fieldsOf node
    pure (put b (.record found))
  | _, _ => throw .wrongKind

/-- Fills some collections. -/
def fillAll (b : Builder) : List (Nat × Nat) → Except Fault Builder
  | [] => .ok b
  | (node, place) :: rest => do
    let b ← b.fill node place
    b.fillAll rest

/-- Fills all collections, level by level; `fuel` bounds the number of levels. -/
def finish : Nat → Builder → Except Fault Builder
  | 0, b => .ok b
  | fuel + 1, b =>
    match b.waiting with
    | [] => .ok b
    | waiting => do
      let b ← fillAll { b with waiting := [] } waiting.reverse
      finish fuel b

end Builder

/-- The value that the nodes of a document give. -/
def NodeGraph.value (g : NodeGraph) : Except Fault ValueGraph := do
  let (root, b) ← (Builder.start g).value g.root
  let b ← Builder.finish (g.nodes.size + 1) b
  pure (b.graph root)

/-- The value of a text without content. -/
def nothing : ValueGraph :=
  { parts := #[.scalar .null], root := 0 }

/-- The value of the document of a text. -/
def read (text : String) : Except Fault ValueGraph := do
  match ← NodeGraph.read text.toList with
  | none => pure nothing
  | some g => g.value

end ScriptTree.Yaml
