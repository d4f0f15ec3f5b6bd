/-!
Text as it is without a terminal: without the escapes that set colours and move the cursor, and
with single line breaks.
-/

namespace ScriptTree.Text

/-- Whether a character may stand between the bracket and the letter of a terminal escape. -/
def isEscapeParameter (c : Char) : Bool :=
  c.isDigit || c == ';' || c == '?'

/-- What follows a terminal escape, if the characters after its first one complete it: a bracket,
parameters, and a letter. -/
def afterEscape? : List Char → Option (List Char)
  | '[' :: cs =>
    match cs.dropWhile isEscapeParameter with
    | c :: rest => if c.isAlpha then some rest else none
    | [] => none
  | _ => none

/-- The characters to pass over before the text goes on after an escape character, zero if it
begins no terminal escape. -/
def escapeLength (cs : List Char) : Nat :=
  match afterEscape? cs with
  | some rest => cs.length - rest.length
  | none => 0

/-- Drops the terminal escapes; `skip` characters of one are still to be passed over. -/
def dropEscapesFrom : Nat → List Char → List Char
  | _, [] => []
  | skip + 1, _ :: cs => dropEscapesFrom skip cs
  | 0, c :: cs =>
    if c = '\x1b' then
      match escapeLength cs with
      | 0 => c :: dropEscapesFrom 0 cs
      | n => dropEscapesFrom n cs
    else c :: dropEscapesFrom 0 cs

/-- A text without terminal escapes. -/
def dropEscapes (cs : List Char) : List Char :=
  dropEscapesFrom 0 cs

/-- Joins each return with the line break after it. -/
def joinLineEnds : List Char → List Char
  | '\r' :: '\n' :: cs => '\n' :: joinLineEnds cs
  | c :: cs => c :: joinLineEnds cs
  | [] => []

end ScriptTree.Text
