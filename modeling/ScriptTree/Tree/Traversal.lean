import ScriptTree.Tree.Forest

/-!
All nodes of some trees, one after the other, each before those below it. The trees still to be
visited lie on a stack.
-/

namespace ScriptTree.Tree

mutual

/-- The number of nodes of a tree. -/
def size : Tree → Nat
  | .node _ _ ts => sizeAll ts + 1

/-- The number of nodes of some trees. -/
def sizeAll : List Tree → Nat
  | [] => 0
  | t :: ts => size t + sizeAll ts

end

theorem sizeAll_append (ts us : List Tree) : sizeAll (ts ++ us) = sizeAll ts + sizeAll us := by
  induction ts with
  | nil => rw [List.nil_append, sizeAll, Nat.zero_add]
  | cons t ts ih => rw [List.cons_append, sizeAll, sizeAll, ih, Nat.add_assoc]

/-- The stack after the visit of its first tree, whose children come before the rest. -/
def pop : List Tree → List Tree
  | [] => []
  | .node _ _ ts :: stack => ts ++ stack

/-- A visit leaves one node less. -/
theorem sizeAll_pop (stack : List Tree) : sizeAll (pop stack) = sizeAll stack - 1 := by
  cases stack with
  | nil => rfl
  | cons t stack =>
    obtain ⟨n, d, ts⟩ := t
    rw [pop, sizeAll_append, sizeAll, size]
    omega

/-- A stack without nodes is empty. -/
theorem sizeAll_eq_zero {stack : List Tree} : sizeAll stack = 0 ↔ stack = [] := by
  cases stack with
  | nil => exact iff_of_true rfl rfl
  | cons t stack =>
    obtain ⟨n, d, ts⟩ := t
    simp [sizeAll, size]

/-- Visits the trees of a stack, the first one next, until the stack is empty. -/
def visit : List Tree → List Tree
  | [] => []
  | t :: stack => t :: visit (pop (t :: stack))
termination_by stack => sizeAll stack
decreasing_by
  rw [sizeAll_pop]
  have := mt sizeAll_eq_zero.1 (List.cons_ne_nil t stack)
  omega

/-- All nodes of some trees. -/
def flatten (roots : List Tree) : List Tree :=
  visit roots

end ScriptTree.Tree
