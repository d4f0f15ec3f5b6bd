/-!
How much two texts have in common: the longest piece of both, then the same on each side of it.
-/

namespace ScriptTree.Text

/-- The number of characters that two texts agree on at their start. -/
def agreement : List Char → List Char → Nat
  | a :: as, b :: bs => if a = b then agreement as bs + 1 else 0
  | _, _ => 0

/-- A piece of two texts: its length, and where it starts in each. -/
structure CommonPiece where
  length : Nat
  left : Nat
  right : Nat
  deriving DecidableEq, Repr

/-- The longest common piece of two texts; of several the one that starts first in the first text,
then in the second. -/
def longestPiece (as bs : List Char) : CommonPiece :=
  (List.range as.length).foldl (fun best i =>
    (List.range bs.length).foldl (fun best j =>
      let length := agreement (as.drop i) (bs.drop j)
      if best.length < length then ⟨length, i, j⟩ else best) best) ⟨0, 0, 0⟩

/-- The number of characters that two texts have in common, found in at most `rounds` rounds of
parting the texts at their longest common piece. -/
def commonLength : Nat → List Char → List Char → Nat
  | 0, _, _ => 0
  | rounds + 1, as, bs =>
    let piece := longestPiece as bs
    if piece.length = 0 then 0
    else
      piece.length + commonLength rounds (as.take piece.left) (bs.take piece.right) +
        commonLength rounds (as.drop (piece.left + piece.length))
          (bs.drop (piece.right + piece.length))

/-- Whether two texts have at least six tenths in common. -/
def isSimilar (s t : String) : Bool :=
  let (as, bs) := (s.toList, t.toList)
  3 * (as.length + bs.length) ≤ 10 * commonLength as.length as bs

end ScriptTree.Text
