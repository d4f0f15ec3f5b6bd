import ScriptTree.Yaml.Plain
import ScriptTree.Yaml.Tokens

/-!
The nodes of a YAML document: scalars, sequences and mappings, each with its tag. An alias stands
for the node that its anchor names, which may be one around it, so the nodes refer to each other by
place.
-/

namespace ScriptTree.Yaml

/-- A node; the nodes inside it are given by their places. The tag of a plain scalar without one of
its own follows from its text. -/
inductive Node where
  | scalar (tag : String) (text : String)
  | sequence (tag : String) (items : List Nat)
  | mapping (tag : String) (entries : List (Nat × Nat))
  deriving Repr, Inhabited

/-- The tag of one of the common types. -/
def commonTag (name : String) : String :=
  "tag:yaml.org,2002:" ++ name

/-- The tag of a type of plain scalars. -/
def Kind.tag : Kind → String
  | .text => commonTag "str"
  | .bool => commonTag "bool"
  | .real => commonTag "float"
  | .int => commonTag "int"
  | .merge => commonTag "merge"
  | .null => commonTag "null"
  | .moment => commonTag "timestamp"
  | .value => commonTag "value"
  | .mark => commonTag "yaml"

/-- A scalar without text, tag or quotes. -/
def Node.empty : Node :=
  .scalar (Kind.tag .null) ""

/-- The tag of a node. -/
def Node.tag : Node → String
  | .scalar tag _ => tag
  | .sequence tag _ => tag
  | .mapping tag _ => tag

/-- The tokens not yet used and the fault after them, the nodes found, the places that anchors
name, and the handles of tags. -/
structure Context where
  tokens : TokenList
  nodes : Array Node
  anchors : List (String × Nat)
  handles : List (String × String)

/-- A step that may use tokens up. -/
abbrev Step (α : Type) := StateT Context (Except Fault) α

namespace Step

/-- The next token. -/
def peek : Step Token := do
  let found := (← get).tokens
  match found.tokens, found.fault with
  | token :: _, _ => return token
  | [], some fault => throw fault
  | [], none => return .textEnd

/-- Uses the next token up. -/
def drop : Step Unit :=
  modify fun c => { c with tokens.tokens := c.tokens.tokens.drop 1 }

/-- Fails at the next token. -/
def refuse {α : Type} : Step α := do
  throw (.unexpected (← peek))

/-- Whether the next token is one of some. -/
def isAt (tokens : List Token) : Step Bool := do
  return tokens.contains (← peek)

/-- Uses the next token up if it is the given one. -/
def accept (token : Token) : Step Bool := do
  if ← isAt [token] then
    drop
    return true
  else return false

/-- The anchor before a node, if there is one. -/
def anchor : Step (Option String) := do
  match ← peek with
  | .anchor name => do
    drop
    return some name
  | _ => return none

/-- The handle and the suffix of the tag before a node, if there is one. -/
def tag : Step (Option (Option String × String)) := do
  match ← peek with
  | .tag handle suffix => do
    drop
    return some (handle, suffix)
  | _ => return none

/-- The full tag. -/
def resolveTag : Option (Option String × String) → Step (Option String)
  | none => return none
  | some (none, suffix) => return some suffix
  | some (some handle, suffix) => do
    match (← get).handles.lookup handle with
    | some tags => return some (tags ++ suffix)
    | none => throw (.unknownHandle handle)

/-- The anchor and the tag before a node, in either order. -/
def properties : Step (Option String × Option String) := do
  match ← anchor with
  | some name =>
    let found ← tag
    return (some name, ← resolveTag found)
  | none =>
    let found ← tag
    let name ← if found.isSome then anchor else pure none
    return (name, ← resolveTag found)

/-- Adds a node, whose name no other node may have, and gives its place. -/
def add (name : Option String) (node : Node) : Step Nat := do
  let place := (← get).nodes.size
  match name with
  | none => pure ()
  | some name =>
    if (← get).anchors.any (·.1 == name) then throw (.repeatedAnchor name)
    modify fun c => { c with anchors := (name, place) :: c.anchors }
  modify fun c => { c with nodes := c.nodes.push node }
  return place

/-- Puts a node in the place of one. -/
def put (place : Nat) (node : Node) : Step Unit :=
  modify fun c => { c with nodes := c.nodes.setIfInBounds place node }

/-- Adds the empty node. -/
def addEmpty : Step Nat :=
  add none .empty

/-- Adds a sequence. It has its place before its items are read, so they may refer to it. -/
def addSequence (name : Option String) (tag : String) (items : Step (List Nat)) : Step Nat := do
  let place ← add name (.sequence tag [])
  let items ← items
  put place (.sequence tag items)
  return place

/-- Adds a mapping. It has its place before its entries are read, so they may refer to it. -/
def addMapping (name : Option String) (tag : String) (entries : Step (List (Nat × Nat))) :
    Step Nat := do
  let place ← add name (.mapping tag [])
  let entries ← entries
  put place (.mapping tag entries)
  return place

/-- The tag of a collection. -/
def collectionTag (tag : Option String) (name : String) : String :=
  match tag with
  | none => commonTag name
  | some "!" => commonTag name
  | some tag => tag

/-- A scalar with its tag; without one, or with the tag of no type, a plain text tells its type. -/
def scalarNode (tag : Option String) (text : String) (plain : Bool) : Node :=
  match tag with
  | none => .scalar (if plain then (kindOf text).tag else commonTag "str") text
  | some "!" => .scalar (kindOf text).tag text
  | some tag => .scalar tag text

mutual

/-- A node, and its place. `inBlock` tells whether indentation may give it structure, and `bare`
whether entries may follow without deeper indentation. -/
def node (inBlock bare : Bool) : Nat → Step Nat
  | 0 => refuse
  | fuel + 1 => do
    match ← peek with
    | .alias name => do
      drop
      match (← get).anchors.lookup name with
      | some place => return place
      | none => throw (.unknownAlias name)
    | _ => do
      let (name, tag) ← properties
      match ← peek, inBlock, bare with
      | .blockEntry, _, true => addSequence name (collectionTag tag "seq") (bareEntries fuel)
      | .scalar text plain, _, _ => do
        drop
        add name (scalarNode tag text plain)
      | .flowSequence, _, _ => do
        addSequence name (collectionTag tag "seq") do
          drop
          flowItems true fuel
      | .flowMapping, _, _ => do
        addMapping name (collectionTag tag "map") do
          drop
          flowPairs true fuel
      | .blockSequence, true, _ => do
        addSequence name (collectionTag tag "seq") do
          drop
          blockItems fuel
      | .blockMapping, true, _ => do
        addMapping name (collectionTag tag "map") do
          drop
          blockPairs fuel
      | _, _, _ =>
        if name.isSome || tag.isSome then add name (scalarNode tag "" true) else refuse

/-- A node, or the empty one where one of some tokens ends its place. -/
def nodeUnless (ends : List Token) (inBlock bare : Bool) : Nat → Step Nat
  | 0 => refuse
  | fuel + 1 => do
    if ← isAt ends then addEmpty else node inBlock bare fuel

/-- The entries of a sequence given by indentation. -/
def blockItems : Nat → Step (List Nat)
  | 0 => refuse
  | fuel + 1 => do
    if ← accept .blockEntry then
      let item ← nodeUnless [.blockEntry, .blockEnd] true false fuel
      return item :: (← blockItems fuel)
    else if ← accept .blockEnd then return []
    else refuse

/-- The entries of a sequence that stands at the column of the key before it. -/
def bareEntries : Nat → Step (List Nat)
  | 0 => refuse
  | fuel + 1 => do
    if ← accept .blockEntry then
      let item ← nodeUnless [.blockEntry, .key, .value, .blockEnd] true false fuel
      return item :: (← bareEntries fuel)
    else return []

/-- The entries of a mapping given by indentation. -/
def blockPairs : Nat → Step (List (Nat × Nat))
  | 0 => refuse
  | fuel + 1 => do
    let ends := [Token.key, .value, .blockEnd]
    if ← accept .key then
      let key ← nodeUnless ends true true fuel
      let value ← if ← accept .value then nodeUnless ends true true fuel else addEmpty
      return (key, value) :: (← blockPairs fuel)
    else if ← accept .blockEnd then return []
    else refuse

/-- The value of a pair in brackets that end with a token. -/
def flowValue (closing : Token) : Nat → Step Nat
  | 0 => refuse
  | fuel + 1 => do
    if ← accept .value then nodeUnless [.flowEntry, closing] false false fuel
    else addEmpty

/-- The entries of a sequence in brackets; an entry may be a single pair. -/
def flowItems (first : Bool) : Nat → Step (List Nat)
  | 0 => refuse
  | fuel + 1 => do
    if ← accept .flowSequenceEnd then return []
    else
      if !first then
        if !(← accept .flowEntry) then refuse
      if ← isAt [.key] then
        let item ← addMapping none (commonTag "map") do
          drop
          let key ← nodeUnless [.value, .flowEntry, .flowSequenceEnd] false false fuel
          let value ← flowValue .flowSequenceEnd fuel
          return [(key, value)]
        return item :: (← flowItems false fuel)
      else if ← accept .flowSequenceEnd then return []
      else
        let item ← node false false fuel
        return item :: (← flowItems false fuel)

/-- The entries of a mapping in brackets; an entry may be a key alone. -/
def flowPairs (first : Bool) : Nat → Step (List (Nat × Nat))
  | 0 => refuse
  | fuel + 1 => do
    if ← accept .flowMappingEnd then return []
    else
      if !first then
        if !(← accept .flowEntry) then refuse
      if ← accept .key then
        let key ← nodeUnless [.value, .flowEntry, .flowMappingEnd] false false fuel
        let value ← flowValue .flowMappingEnd fuel
        return (key, value) :: (← flowPairs false fuel)
      else if ← accept .flowMappingEnd then return []
      else
        let key ← node false false fuel
        let value ← addEmpty
        return (key, value) :: (← flowPairs false fuel)

end

/-- The handles that every document has. -/
def commonHandles : List (String × String) :=
  [("!", "!"), ("!!", commonTag "")]

/-- Passes over marks that end documents, at most `fuel` of them. -/
def dropEnds : Nat → Step Unit
  | 0 => return
  | fuel + 1 => do
    if ← accept .documentEnd then dropEnds fuel

/-- Directives before a document, at most `fuel` of them: the handles they define, and whether the
version was given. -/
def directives : Nat → List (String × String) → Bool → Step (List (String × String))
  | 0, _, _ => refuse
  | fuel + 1, handles, versioned => do
    match ← peek with
    | .version major _ => do
      if versioned || major != 1 then throw .badDirective
      drop
      directives fuel handles true
    | .tagHandle handle tags => do
      if handles.any (·.1 == handle) then throw .badDirective
      drop
      directives fuel (handles ++ [(handle, tags)]) versioned
    | .otherDirective => do
      drop
      directives fuel handles versioned
    | _ => return handles

/-- Whether a token starts a document with a mark or with directives. -/
def startsDocument : Token → Bool
  | .version _ _ => true
  | .tagHandle _ _ => true
  | .otherDirective => true
  | .documentStart => true
  | _ => false

/-- What a document holds after its mark. -/
def content (fuel : Nat) : Step Nat := do
  let token ← peek
  if startsDocument token then addEmpty
  else nodeUnless [.documentEnd, .textEnd] true false fuel

/-- The directives before a document and the mark that starts it. -/
def mark (fuel : Nat) : Step Unit := do
  let handles ← directives fuel [] false
  modify fun c => { c with handles := handles ++ commonHandles }
  if !(← accept .documentStart) then refuse

/-- The place of the only document of a text, if there is one. -/
def document (fuel : Nat) : Step (Option Nat) := do
  let first ← peek
  if first == .textEnd then return none
  let root ←
    if startsDocument first then do
      mark fuel
      content fuel
    else node true false fuel
  dropEnds fuel
  if ← isAt [.textEnd] then return some root
  mark fuel
  throw .severalDocuments

end Step

/-- The nodes of a document and the place of the outermost one. -/
structure NodeGraph where
  nodes : Array Node
  root : Nat

/-- The document of a text; there is none in a text without content. -/
def NodeGraph.read (text : List Char) : Except Fault (Option NodeGraph) := do
  let tokens := TokenList.ofChars text
  let (root, context) ← (Step.document (4 * tokens.tokens.length + 8)).run
    { tokens, nodes := #[], anchors := [], handles := Step.commonHandles }
  return root.map fun root => { nodes := context.nodes, root }

end ScriptTree.Yaml
