/-!
A place in a YAML text: the text from there on, how many characters came before, and line and
column, which give the text its structure. The end of the text reads as a null character, which
the text itself never holds.
-/

namespace ScriptTree.Yaml

/-- The end of the text. -/
def atEnd (c : Char) : Bool :=
  c == '\x00'

/-- The characters that end a line. -/
def isBreak (c : Char) : Bool :=
  c == '\r' || c == '\n' || c == '\x85' || c == '\u2028' || c == '\u2029'

/-- The end of a line or of the text. -/
def isLineEnd (c : Char) : Bool :=
  atEnd c || isBreak c

/-- A space, or the end of a line. -/
def isSpaceOrEnd (c : Char) : Bool :=
  c == ' ' || isLineEnd c

/-- White space, or the end of a line. -/
def isGap (c : Char) : Bool :=
  c == '\t' || isSpaceOrEnd c

/-- Letters, digits, underscore and hyphen of ASCII. -/
def isWordChar (c : Char) : Bool :=
  c.isAlphanum || c == '_' || c == '-'

/-- The characters that a YAML text may hold. -/
def isAllowed (c : Char) : Bool :=
  let n := c.toNat
  n == 0x09 || n == 0x0a || n == 0x0d || (0x20 ≤ n && n ≤ 0x7e) || n == 0x85 ||
    (0xa0 ≤ n && n ≤ 0xd7ff) || (0xe000 ≤ n && n ≤ 0xfffd) || (0x10000 ≤ n && n ≤ 0x10ffff)

/-- A place in a text. -/
structure Cursor where
  text : List Char
  index : Nat
  line : Nat
  column : Nat

namespace Cursor

/-- The start of a text. -/
def start (text : List Char) : Cursor :=
  ⟨text, 0, 0, 0⟩

/-- The character `n` places ahead. -/
def peek (c : Cursor) (n : Nat) : Char :=
  c.text.getD n '\x00'

/-- The character here. -/
def head (c : Cursor) : Char :=
  c.peek 0

/-- The next `n` characters. -/
def front (c : Cursor) (n : Nat) : List Char :=
  c.text.take n

/-- The place after one character. A return before a line feed does not end the line, and a byte
order mark takes no column. -/
def next (c : Cursor) : Cursor :=
  match c.text with
  | [] => c
  | ch :: rest =>
    if isBreak ch && !(ch == '\r' && rest.head? == some '\n') then
      ⟨rest, c.index + 1, c.line + 1, 0⟩
    else ⟨rest, c.index + 1, c.line, if ch = '\ufeff' then c.column else c.column + 1⟩

/-- The place after `n` characters. -/
def skip (c : Cursor) : Nat → Cursor
  | 0 => c
  | n + 1 => c.next.skip n

/-- The number of characters from here that fulfil `p`. -/
def count (c : Cursor) (p : Char → Bool) : Nat :=
  (c.text.takeWhile p).length

/-- The characters from here that fulfil `p`, and the place after them. -/
def take (c : Cursor) (p : Char → Bool) : List Char × Cursor :=
  let found := c.text.takeWhile p
  (found, c.skip found.length)

/-- The place after the characters that fulfil `p`. -/
def drop (c : Cursor) (p : Char → Bool) : Cursor :=
  (c.take p).2

/-- The place after spaces. -/
def dropSpaces (c : Cursor) : Cursor :=
  c.drop (· == ' ')

/-- The place of the end of the line. -/
def dropLine (c : Cursor) : Cursor :=
  c.drop (!isLineEnd ·)

/-- The place after spaces, but not beyond a column. -/
def dropIndent (c : Cursor) (column : Nat) : Cursor :=
  c.skip (min (c.count (· == ' ')) (column - c.column))

/-- A line break, if one is here, as it counts in a text, and the place after it. -/
def lineBreak (c : Cursor) : List Char × Cursor :=
  let ch := c.head
  if ch == '\r' && c.peek 1 == '\n' then (['\n'], c.skip 2)
  else if ch == '\r' || ch == '\n' || ch == '\x85' then (['\n'], c.next)
  else if isBreak ch then ([ch], c.next)
  else ([], c)

/-- Whether a mark between documents is here. -/
def atSeparator (c : Cursor) (mark : Char) : Bool :=
  c.front 3 == [mark, mark, mark] && isGap (c.peek 3)

/-- Whether any mark between documents is here. -/
def atAnySeparator (c : Cursor) : Bool :=
  c.atSeparator '-' || c.atSeparator '.'

end Cursor
end ScriptTree.Yaml
