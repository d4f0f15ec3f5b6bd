import ScriptTree.Tree.Node

/-!
The forest of a flat list of nodes.

Of several nodes with one hash the last counts, at the place of the first (`latest`). Each node is
then linked to its parent (`link`). Nodes without parent are the roots; a node whose parent is
itself or is not in the list is an orphan. A walk from the roots finds the nodes that belong to the
forest, and their depths: orphans and all below them, like nodes that lead into a cycle of parents,
are never reached.
-/

namespace ScriptTree

/-- A node with its depth and the trees below it. -/
inductive Tree where
  | node (value : Node) (depth : Nat) (children : List Tree)
  deriving Repr

namespace Tree

/-- The node at the top. -/
def value : Tree → Node
  | .node n _ _ => n

/-- The distance of the top from its root. -/
def depth : Tree → Nat
  | .node _ d _ => d

/-- The trees directly below the top. -/
def children : Tree → List Tree
  | .node _ _ ts => ts

/-- The hash of the node at the top. -/
def hash (t : Tree) : Int :=
  t.value.hash

/-- Whether there are trees below. -/
def hasChildren (t : Tree) : Bool :=
  !t.children.isEmpty

mutual

/-- All subtrees of a tree, itself first, each before those below it. -/
def preorder : Tree → List Tree
  | .node n d ts => .node n d ts :: preorderAll ts

/-- All subtrees of some trees, one tree after the other. -/
def preorderAll : List Tree → List Tree
  | [] => []
  | t :: ts => preorder t ++ preorderAll ts

end

mutual

/-- Writes a tree: a node's fields and its children. -/
def toJson : Tree → Json.Value
  | .node n _ ts => .object (n.toFields ++ [(Points.ofString "children", .list (toJsonAll ts))])

/-- Writes some trees. -/
def toJsonAll : List Tree → List Json.Value
  | [] => []
  | t :: ts => toJson t :: toJsonAll ts

end

end Tree

/-- The trees of a list of nodes, the trees of all nodes that belong to them by hash, and the hashes
of the orphans. -/
structure Forest where
  roots : List Tree
  nodes : List (Int × Tree)
  orphans : List Int
  deriving Repr

namespace Forest

/-- The forest without nodes. -/
def empty : Forest := ⟨[], [], []⟩

/-! ### Linking -/

/-- Puts a node at the place of an earlier one with its hash, or at the end. -/
def put (n : Node) : List Node → List Node
  | [] => [n]
  | m :: ms => if m.hash = n.hash then n :: ms else m :: put n ms

/-- The nodes with distinct hashes: the last of each hash, in the order of the first ones. -/
def latest (ns : List Node) : List Node :=
  ns.foldl (fun table n => put n table) []

/-- A node and the hashes of the nodes linked to it, in the order of linking. -/
structure Entry where
  node : Node
  children : List Int
  deriving Repr

/-- Nodes on the way to be linked: all of them, and the roots and the orphans found so far. -/
structure Links where
  entries : List Entry
  roots : List Int
  orphans : List Int
  deriving Repr

/-- The entry of a hash. -/
def entryOf? (entries : List Entry) (h : Int) : Option Entry :=
  entries.find? (·.node.hash == h)

/-- The hashes of the nodes linked to a node. -/
def childrenOf (entries : List Entry) (h : Int) : List Int :=
  match entryOf? entries h with
  | some e => e.children
  | none => []

/-- Puts a child at the end of its parent's children. -/
def adopt (parent child : Int) (e : Entry) : Entry :=
  if e.node.hash = parent then { e with children := e.children ++ [child] } else e

/-- Links a node to its parent. A node is not linked to itself. -/
def place (l : Links) (n : Node) : Links :=
  match n.parent with
  | none => { l with roots := l.roots ++ [n.hash] }
  | some p =>
    if p ≠ n.hash ∧ (entryOf? l.entries p).isSome then
      { l with entries := l.entries.map (adopt p n.hash) }
    else { l with orphans := l.orphans ++ [n.hash] }

/-- Links all nodes of a table. -/
def link (table : List Node) : Links :=
  table.foldl place ⟨table.map (⟨·, []⟩), [], []⟩

/-! ### The walk from the roots -/

/-- A walk through the nodes: the nodes reached with their depths, in the order of reaching, and
those still to be looked at, the next one first. -/
structure Walk where
  reached : List (Int × Nat)
  stack : List (Int × Nat)
  deriving Repr

namespace Walk

/-- The walk that has yet to begin, with all roots at depth zero. -/
def start (roots : List Int) : Walk :=
  { reached := [], stack := roots.map (·, 0) }

/-- Whether a node has been reached. -/
def has (w : Walk) (h : Int) : Bool :=
  w.reached.any (·.1 == h)

/-- Looks at the next node: if it has not been reached yet it is now, and its children are next. -/
def step (entries : List Entry) (w : Walk) : Walk :=
  match w.stack with
  | [] => w
  | (h, depth) :: stack =>
    if w.has h then { w with stack }
    else
      { reached := w.reached ++ [(h, depth)]
        stack := (childrenOf entries h).map (·, depth + 1) ++ stack }

/-- The number of entries not reached. -/
def unreached (entries : List Entry) (w : Walk) : Nat :=
  (entries.filter fun e => !w.has e.node.hash).length

/-- What is not reached after a node was is what was not reached before, without that node. -/
theorem unreached_snoc (entries : List Entry) (reached stack stack' : List (Int × Nat)) (h : Int)
    (depth : Nat) :
    unreached entries ⟨reached ++ [(h, depth)], stack'⟩ =
      ((entries.filter fun e => !has ⟨reached, stack⟩ e.node.hash).filter
        fun e => h != e.node.hash).length := by
  unfold unreached
  rw [List.filter_filter]
  congr 2
  funext e
  simp only [has, List.any_append, List.any_cons, List.any_nil, Bool.or_false, Bool.not_or, bne]
  exact Bool.and_comm _ _

/-- A step reaches one more entry, or it leaves one node less to look at. -/
theorem step_decreases (entries : List Entry) {w : Walk} (h : w.stack ≠ []) :
    (w.step entries).unreached entries < w.unreached entries ∨
      (w.step entries).unreached entries = w.unreached entries ∧
        (w.step entries).stack.length < w.stack.length := by
  obtain ⟨reached, stack⟩ := w
  cases stack with
  | nil => exact absurd rfl h
  | cons top stack =>
    obtain ⟨hash, depth⟩ := top
    unfold step
    dsimp only
    split
    · exact .inr ⟨rfl, Nat.lt_succ_self _⟩
    · rename_i hnew
      rw [unreached_snoc entries reached ((hash, depth) :: stack)]
      cases he : entryOf? entries hash with
      | none =>
        -- a hash without entry adds nothing to look at
        have hnone := List.find?_eq_none.1 he
        refine .inr ⟨congrArg List.length (List.filter_eq_self.2 fun e hmem => ?_), ?_⟩
        · have hother := hnone e (List.mem_filter.1 hmem).1
          simp only [beq_iff_eq] at hother
          exact bne_iff_ne.2 fun heq => hother heq.symm
        · simp [childrenOf, he]
      | some e =>
        have hhash : e.node.hash = hash := by simpa using List.find?_some he
        refine .inl (List.length_filter_lt_length_iff_exists.2 ⟨e, ?_, ?_⟩)
        · refine List.mem_filter.2 ⟨List.mem_of_find?_eq_some he, ?_⟩
          rw [hhash]
          simpa using hnew
        · rw [hhash]; simp

/-- Walks on until there is nothing left to look at. -/
def run (entries : List Entry) (w : Walk) : Walk :=
  if h : w.stack = [] then w
  else
    have := step_decreases entries h
    run entries (w.step entries)
termination_by (w.unreached entries, w.stack.length)
decreasing_by
  rcases this with hless | ⟨hsame, hless⟩
  · exact Prod.Lex.left _ _ hless
  · rw [hsame]; exact Prod.Lex.right _ hless

end Walk

/-- The trees of the nodes reached. The children of a node are reached after it, so its tree is made
of those of the rest. -/
def assemble (entries : List Entry) : List (Int × Nat) → List (Int × Tree)
  | [] => []
  | (h, depth) :: later =>
    let trees := assemble entries later
    match entryOf? entries h with
    | none => trees
    | some e => (h, .node e.node depth (e.children.filterMap fun c => trees.lookup c)) :: trees

/-! ### The forest -/

/-- The forest of a list of nodes. -/
def build (ns : List Node) : Forest :=
  let links := link ((latest ns).map Node.capped)
  let nodes := assemble links.entries ((Walk.start links.roots).run links.entries).reached
  { roots := links.roots.filterMap fun h => nodes.lookup h
    nodes
    orphans := links.orphans }

/-- All trees of the forest in the order of reaching. -/
def index (f : Forest) : List Tree :=
  f.nodes.map Prod.snd

/-- The tree with a hash. -/
def find? (f : Forest) (h : Int) : Option Tree :=
  f.nodes.lookup h

/-- The number of nodes. -/
def size (f : Forest) : Nat :=
  f.nodes.length

end Forest
end ScriptTree
