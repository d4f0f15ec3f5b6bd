import ScriptTree.Text.Point

/-!
Cutting a text to a number of points, with a mark where something was left out.
-/

namespace ScriptTree.Text

/-- What stands before a place; a negative place counts from the end. -/
def takeTo {α : Type} (as : List α) (place : Int) : List α :=
  if 0 ≤ place then as.take place.toNat else as.take (as.length - place.natAbs)

/-- The mark for what was left out. -/
def ellipsis : Points := "..."

/-- A text of at most `limit` points as it is, a longer one cut there and marked. -/
def cut (ps : Points) (limit : Int) : Points :=
  if (ps.length : Int) ≤ limit then ps else takeTo ps limit ++ ellipsis

end ScriptTree.Text
