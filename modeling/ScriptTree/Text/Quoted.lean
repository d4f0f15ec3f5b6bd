import ScriptTree.Text.Point
import ScriptTree.Text.Printable

/-!
A text between quotes, on one line, with escapes for all that does not show: the form in which
texts appear in messages and inside lists.
-/

namespace ScriptTree.Text

/-- The hexadecimal digit of a number below sixteen. -/
def hexDigit (n : Nat) : Char :=
  if n < 10 then Char.ofNat (0x30 + n) else Char.ofNat (0x61 + (n - 10))

/-- The `width` lowest hexadecimal digits of `n`. -/
def hexDigits : Nat → Nat → List Char
  | 0, _ => []
  | width + 1, n => hexDigits width (n / 16) ++ [hexDigit (n % 16)]

/-- The escape of a number that stands for a point, in the shortest of the three forms. -/
def codeEscape (n : Nat) : List Char :=
  if n < 0x100 then '\\' :: 'x' :: hexDigits 2 n
  else if n < 0x10000 then '\\' :: 'u' :: hexDigits 4 n
  else '\\' :: 'U' :: hexDigits 8 n

/-- One character between quotes of the kind `quote`. -/
def quotedChar (quote : Char) (c : Char) : List Char :=
  if c = quote then ['\\', c]
  else if c = '\\' then ['\\', '\\']
  else if c = '\n' then ['\\', 'n']
  else if c = '\r' then ['\\', 'r']
  else if c = '\t' then ['\\', 't']
  else if isPrintable c then [c]
  else codeEscape c.toNat

/-- One point between quotes of the kind `quote`. -/
def quotedPoint (quote : Char) : Point → List Char
  | .char c => quotedChar quote c
  | .half n => codeEscape (Point.half n).code

/-- Single quotes, unless the text holds one of those and no double quote. -/
def quoteFor (cs : List Char) : Char :=
  if cs.contains '\'' && !cs.contains '"' then '"' else '\''

/-- The quoted form of a text. -/
def quotedChars (ps : Points) : List Char :=
  let quote := quoteFor ps.chars
  quote :: ps.flatMap (quotedPoint quote) ++ [quote]

/-- The quoted form of a text. -/
def quoted (ps : Points) : String :=
  String.ofList (quotedChars ps)

/-- Bytes between quotes, after the letter `b`. -/
def quotedBytes (bs : List UInt8) : String :=
  let cs := bs.map fun b => Char.ofNat b.toNat
  let quote := quoteFor cs
  let body := cs.flatMap fun c =>
    if 0x7f ≤ c.toNat then codeEscape c.toNat else quotedChar quote c
  String.ofList ('b' :: quote :: body ++ [quote])

end ScriptTree.Text
