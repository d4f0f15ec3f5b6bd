import ScriptTree.Tree.Traversal
import ScriptTree.Number.Binary64

/-!
The levels of a forest, and revealing them one after the other: every node with children is
revealed, those nearer to the root first, and a node that cannot be revealed is passed over. The
trees still to be put on their levels wait in a queue.
-/

namespace ScriptTree.Forest

/-- A sweep through the trees: the levels found so far, and the trees that wait with their depths, the
next one first. -/
structure Sweep where
  levels : List (List Tree)
  queue : List (Tree × Nat)
  deriving Repr

namespace Sweep

/-- The sweep that has yet to begin, with all roots at depth zero. -/
def start (roots : List Tree) : Sweep :=
  { levels := [], queue := roots.map (·, 0) }

/-- Puts the next tree at the end of its level, which it begins if it is the first there. Its
children go to the end of the queue. -/
def step (s : Sweep) : Sweep :=
  match s.queue with
  | [] => s
  | (t, depth) :: queue =>
    let levels := if depth = s.levels.length then s.levels ++ [[]] else s.levels
    { levels := levels.modify depth (· ++ [t])
      queue := queue ++ t.children.map (·, depth + 1) }

/-- The number of nodes of the trees that wait. -/
def waiting (s : Sweep) : Nat :=
  Tree.sizeAll (s.queue.map Prod.fst)

/-- A step leaves one node less. -/
theorem waiting_step (s : Sweep) : s.step.waiting = s.waiting - 1 := by
  obtain ⟨levels, queue⟩ := s
  cases queue with
  | nil => rfl
  | cons top queue =>
    obtain ⟨⟨n, d, ts⟩, depth⟩ := top
    simp only [waiting, step, List.map_append, List.map_cons, List.map_map, Tree.sizeAll_append,
      Tree.sizeAll, Tree.size, Tree.children]
    rw [show ts.map (Prod.fst ∘ fun t => (t, depth + 1)) = ts from List.map_id ts]
    omega

/-- Nothing waits if no node is left. -/
theorem waiting_eq_zero {s : Sweep} : s.waiting = 0 ↔ s.queue = [] := by
  rw [waiting, Tree.sizeAll_eq_zero, List.map_eq_nil_iff]

/-- Sweeps on until no tree waits. -/
def run (s : Sweep) : Sweep :=
  if s.queue = [] then s else run s.step
termination_by s.waiting
decreasing_by
  rename_i hqueue
  rw [waiting_step]
  have := mt waiting_eq_zero.1 hqueue
  omega

end Sweep

/-- The levels of a forest: the roots, their children, and so on. -/
def levels (f : Forest) : List (List Tree) :=
  ((Sweep.start f.roots).run).levels

/-- How nodes are revealed: what is done to reveal a tree, which may fail, and how a pause of some seconds is
made. Both act on a world of their own. A pause does not fail: the delays meant are those that a clock can count,
which are neither infinite nor longer than 292 years. -/
structure Revealer (ε ω : Type) where
  reveal : Tree → ω → Except ε Unit × ω
  pause : Binary64 → ω → ω

/-- Comes to the next tree, with the number of trees revealed before it. A tree without children is left alone,
and one that cannot be revealed is passed over; a pause of `delay` seconds, if that is above zero, follows a
success. -/
def Revealer.next {ε ω : Type} (r : Revealer ε ω) (delay : Binary64) (done : Nat × ω) (t : Tree) : Nat × ω :=
  if t.hasChildren then
    match r.reveal t done.2 with
    | (.error _, w) => (done.1, w)
    | (.ok _, w) => (done.1 + 1, if delay.isPositive then r.pause delay w else w)
  else done

/-- Reveals every tree with children, level by level, and tells how many were revealed. -/
def expand {ε ω : Type} (f : Forest) (r : Revealer ε ω) (delay : Binary64) (world : ω) : Nat × ω :=
  f.levels.foldl (fun done level => level.foldl (r.next delay) done) (0, world)

end ScriptTree.Forest
