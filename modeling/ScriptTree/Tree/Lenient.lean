import ScriptTree.Json.Value

/-!
Lenient reading of the numbers and texts of a node: a number may come as a text, a text as any
value, and what is unusable has a default.
-/

namespace ScriptTree.Json.Value

/-- The whole number that a text holds, white space of every kind around it dropped. -/
def intOfText? (s : Points) : Option Int :=
  s.legible?.bind fun s =>
    match Integer.read (Text.strip s) with
    | .ok i => some i
    | .error _ => none

/-- A whole number: a fraction is cut off, a text is read, and all else counts as zero. -/
def toInt : Value → Int
  | .int i => i
  | .real x => x.truncate?.getD 0
  | .text s => (intOfText? s).getD 0
  | _ => 0

/-- A whole number if there is one. Numbers with a fraction or an exponent do not count. -/
def toInt? : Value → Option Int
  | .int i => some i
  | .text s => intOfText? s
  | _ => none

/-- A text: null is empty, every other value has its own. -/
def toText : Value → Points
  | .null => ""
  | .text s => s
  | v => v.display

end ScriptTree.Json.Value
