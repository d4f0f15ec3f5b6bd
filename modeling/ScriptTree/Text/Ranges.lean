/-!
Sets of code points given as ranges, the form in which character properties are tabulated.
-/

namespace ScriptTree.Text

/-- Membership in one of the ranges, both ends included. -/
def inRanges (ranges : List (Nat × Nat)) (n : Nat) : Bool :=
  ranges.any fun r => r.1 ≤ n && n ≤ r.2

end ScriptTree.Text
