import ScriptTree.Yaml.Node

/-!
Merging. A mapping may take over the entries of others under a merge key; they come in front of its
own. Of several mappings under one key the last one comes first. A mapping may be under a merge key
of its own, and then takes over what is left of it.
-/

namespace ScriptTree.Yaml

/-- The node at a place. -/
def nodeAt (nodes : Array Node) (place : Nat) : Node :=
  (nodes[place]?).getD .empty

/-- The entries of a mapping; there are none if the node is no mapping. -/
def entriesAt? (nodes : Array Node) (place : Nat) : Option (List (Nat × Nat)) :=
  match nodeAt nodes place with
  | .mapping _ entries => some entries
  | _ => none

/-- Replaces the entries of a mapping. -/
def setEntries (nodes : Array Node) (place : Nat) (entries : List (Nat × Nat)) : Array Node :=
  match nodeAt nodes place with
  | .mapping tag _ => nodes.setIfInBounds place (.mapping tag entries)
  | _ => nodes

/-- Whether a node is a merge key. -/
def isMergeKey (nodes : Array Node) (place : Nat) : Bool :=
  (nodeAt nodes place).tag == Kind.merge.tag

/-- The number of merge keys of a document. -/
def mergeCount (nodes : Array Node) : Nat :=
  nodes.foldl (fun n node =>
    match node with
    | .mapping _ entries => n + entries.countP fun e => isMergeKey nodes e.1
    | _ => n) 0

/-- Makes an ordinary text of a key that is the equals sign. -/
def plainKey (nodes : Array Node) (place : Nat) : Array Node :=
  if (nodeAt nodes place).tag != Kind.value.tag then nodes
  else
    match nodeAt nodes place with
    | .scalar _ text => nodes.setIfInBounds place (.scalar Kind.text.tag text)
    | .sequence _ items => nodes.setIfInBounds place (.sequence Kind.text.tag items)
    | .mapping _ entries => nodes.setIfInBounds place (.mapping Kind.text.tag entries)

/-- Resolves the merge keys of the mapping at a place, where `taken` are the entries taken over so
far. Each step removes a merge key, and `fuel` is above their number. -/
def mergeFrom : Nat → List (Nat × Nat) → Nat → Array Node → Except Fault (Array Node)
  | 0, _, _, _ => .error .wrongKind
  | fuel + 1, taken, place, nodes =>
    match entriesAt? nodes place with
    | none => .error .wrongKind
    | some entries =>
      match entries.span fun e => !isMergeKey nodes e.1 with
      | (own, []) =>
        let nodes := own.foldl (fun nodes e => plainKey nodes e.1) nodes
        .ok (if taken.isEmpty then nodes else setEntries nodes place (taken ++ own))
      | (before, (_, value) :: after) => do
        let nodes := setEntries nodes place (before ++ after)
        match nodeAt nodes value with
        | .mapping _ _ => do
          let nodes ← mergeFrom fuel [] value nodes
          mergeFrom fuel (taken ++ (entriesAt? nodes value).getD []) place nodes
        | .sequence _ items => do
          let (groups, nodes) ← items.foldlM (fun (groups, nodes) item => do
            let nodes ← mergeFrom fuel [] item nodes
            pure ((entriesAt? nodes item).getD [] :: groups, nodes)) ([], nodes)
          mergeFrom fuel (taken ++ groups.flatten) place nodes
        | .scalar _ _ => .error .wrongKind

end ScriptTree.Yaml
