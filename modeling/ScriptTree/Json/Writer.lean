import ScriptTree.Json.Value
import ScriptTree.Text.Quoted

/-!
Writing JSON: on one line with a space after each comma and colon, or on many lines with two
spaces for each level. What is beyond ASCII stands as it is, half of a surrogate pair, too.
-/

namespace ScriptTree.Json

/-- One character inside a string. -/
def stringChar (c : Char) : List Char :=
  if c = '"' then ['\\', '"']
  else if c = '\\' then ['\\', '\\']
  else if c = '\n' then ['\\', 'n']
  else if c = '\r' then ['\\', 'r']
  else if c = '\t' then ['\\', 't']
  else if c = '\x08' then ['\\', 'b']
  else if c = '\x0c' then ['\\', 'f']
  else if c.toNat < 0x20 then '\\' :: 'u' :: Text.hexDigits 4 c.toNat
  else [c]

/-- One point inside a string. -/
def stringPoint : Point → Points
  | .char c => Points.ofChars (stringChar c)
  | p => [p]

/-- A string with its quotes. -/
def stringText (s : Points) : Points :=
  "\"" ++ s.flatMap stringPoint ++ "\""

/-- A number with a fraction or an exponent, or one of the words for numbers without digits. -/
def realText : Binary64 → String
  | .nan => "NaN"
  | .infinity negative => if negative then "-Infinity" else "Infinity"
  | x => x.text

/-- Pieces with a separator between them. -/
def joined {α : Type} (separator : List α) : List (List α) → List α
  | [] => []
  | [p] => p
  | p :: ps => p ++ separator ++ joined separator ps

mutual

/-- A value on one line. -/
def lineText : Value → Points
  | .null => "null"
  | .bool b => if b then "true" else "false"
  | .int i => Integer.text i
  | .real x => realText x
  | .text s => stringText s
  | .list xs => "[" ++ joined ", " (lineItems xs) ++ "]"
  | .object fs => "\x7b" ++ joined ", " (lineFields fs) ++ "\x7d"

/-- The items of a list on one line. -/
def lineItems : List Value → List Points
  | [] => []
  | x :: xs => lineText x :: lineItems xs

/-- The fields of an object on one line. -/
def lineFields : List (Points × Value) → List Points
  | [] => []
  | (k, v) :: fs => (stringText k ++ ": " ++ lineText v) :: lineFields fs

end

/-- A new line at a level. -/
def newLine (level : Nat) : Points :=
  "\n" ++ List.replicate (2 * level) (Point.char ' ')

mutual

/-- A value on many lines; what is empty stays on one. -/
def blockText (level : Nat) : Value → Points
  | .list [] => "[]"
  | .list (x :: xs) =>
    let separator := "," ++ newLine (level + 1)
    "[" ++ newLine (level + 1) ++ joined separator (blockItems (level + 1) (x :: xs)) ++
      newLine level ++ "]"
  | .object [] => "\x7b\x7d"
  | .object (f :: fs) =>
    let separator := "," ++ newLine (level + 1)
    "\x7b" ++ newLine (level + 1) ++ joined separator (blockFields (level + 1) (f :: fs)) ++
      newLine level ++ "\x7d"
  | v => lineText v

/-- The items of a list on many lines. -/
def blockItems (level : Nat) : List Value → List Points
  | [] => []
  | x :: xs => blockText level x :: blockItems level xs

/-- The fields of an object on many lines. -/
def blockFields (level : Nat) : List (Points × Value) → List Points
  | [] => []
  | (k, v) :: fs =>
    (stringText k ++ ": " ++ blockText level v) :: blockFields level fs

end

/-- A value on one line. -/
def write (v : Value) : Points :=
  lineText v

/-- A value on many lines. -/
def writeBlock (v : Value) : Points :=
  blockText 0 v

end ScriptTree.Json
