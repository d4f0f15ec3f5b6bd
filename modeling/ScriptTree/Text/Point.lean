/-!
Texts as a document may hold them. An escape can name half of a surrogate pair where the other half is
missing. Such a half counts as one point of the text, as a character does, but it has no bytes.
-/

namespace ScriptTree

/-- A point of a text: a character, or half of a surrogate pair, numbered from the first one. -/
inductive Point where
  | char (c : Char)
  | half (n : Fin 2048)
  deriving DecidableEq, Repr

namespace Point

/-- The code of the first half of a surrogate pair. -/
def firstHalf : Nat := 0xd800

/-- The number of a point. -/
def code : Point → Nat
  | .char c => c.toNat
  | .half n => firstHalf + n

/-- The character that a point is. -/
def char? : Point → Option Char
  | .char c => some c
  | .half _ => none

/-- Whether a point is a character. -/
def isChar (p : Point) : Bool :=
  p.char?.isSome

end Point

/-- A text of points. -/
abbrev Points := List Point

namespace Points

/-- A text of characters. -/
def ofChars (cs : List Char) : Points :=
  cs.map .char

/-- A text of characters. -/
def ofString (s : String) : Points :=
  ofChars s.toList

instance : Coe String Points := ⟨ofString⟩

/-- The characters of a text. -/
def chars (ps : Points) : List Char :=
  ps.filterMap Point.char?

/-- Whether a text holds nothing but characters. -/
def isLegible (ps : Points) : Bool :=
  ps.all Point.isChar

/-- A text that holds nothing but characters. -/
def legible? (ps : Points) : Option String :=
  if isLegible ps then some (String.ofList (chars ps)) else none

/-- Changes the characters of a text where they follow each other; `run` holds those that were passed
since the last half, the last one first. -/
def mapRunsFrom (f : List Char → List Char) (run : List Char) : Points → Points
  | [] => ofChars (f run.reverse)
  | .char c :: ps => mapRunsFrom f (c :: run) ps
  | .half n :: ps => ofChars (f run.reverse) ++ .half n :: mapRunsFrom f [] ps

/-- Changes the characters of a text where they follow each other. -/
def mapRuns (f : List Char → List Char) (ps : Points) : Points :=
  mapRunsFrom f [] ps

end Points
end ScriptTree
