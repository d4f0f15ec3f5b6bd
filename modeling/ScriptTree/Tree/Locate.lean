import ScriptTree.Tree.Forest

/-!
Finding nodes by a place in the script.
-/

namespace ScriptTree.Forest

/-- All trees whose node's extent holds the place, in the order of the index. -/
def containing (f : Forest) (line column : Int) : List Tree :=
  f.index.filter (·.value.contains line column)

/-- Whether `t` is a better answer than `best`: shorter, or as long and deeper. -/
def isInner (t best : Tree) : Bool :=
  t.value.textLength < best.value.textLength ||
    (t.value.textLength == best.value.textLength && best.depth < t.depth)

/-- The best of some trees, the first of equally good ones. -/
def innermost : List Tree → Option Tree
  | [] => none
  | t :: ts => some (ts.foldl (fun best t => if isInner t best then t else best) t)

/-- The innermost node around a place. -/
def locate (f : Forest) (line column : Int) : Option Tree :=
  innermost (f.containing line column)

end ScriptTree.Forest
