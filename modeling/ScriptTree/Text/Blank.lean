import ScriptTree.Text.Point

/-!
White space of every script, and what is built on it: trimming a text and splitting it into
words. Zero-width characters and the byte order mark are not white space.
-/

namespace ScriptTree.Text

/-- White space: the ASCII controls from tab to return and from file to unit separator, the
space, the next-line control, and the space separators of Unicode. -/
def isBlank (c : Char) : Bool :=
  let n := c.toNat
  (0x09 ≤ n && n ≤ 0x0d) || (0x1c ≤ n && n ≤ 0x20) || n == 0x85 || n == 0xa0 || n == 0x1680 ||
    (0x2000 ≤ n && n ≤ 0x200a) || n == 0x2028 || n == 0x2029 || n == 0x202f || n == 0x205f ||
    n == 0x3000

/-- Drops white space at the start. -/
def trimLeft (cs : List Char) : List Char :=
  cs.dropWhile isBlank

/-- Drops white space at the end. -/
def trimRight (cs : List Char) : List Char :=
  (cs.reverse.dropWhile isBlank).reverse

/-- Drops white space at both ends. -/
def trim (cs : List Char) : List Char :=
  trimRight (trimLeft cs)

/-- White space that may stand around a number: all but the separator controls. -/
def isNumberBlank (c : Char) : Bool :=
  isBlank c && !(0x1c ≤ c.toNat && c.toNat ≤ 0x1f)

/-- Drops the white space that may stand around a number. -/
def trimNumber (cs : List Char) : List Char :=
  ((cs.dropWhile isNumberBlank).reverse.dropWhile isNumberBlank).reverse

/-- A text without white space at its ends. -/
def strip (s : String) : String :=
  String.ofList (trim s.toList)

/-- The maximal runs of what is not white space; `word` holds the run in progress, its end first. -/
def wordsFrom {α : Type} (isBlank : α → Bool) (word : List α) : List α → List (List α)
  | [] => if word.isEmpty then [] else [word.reverse]
  | a :: as =>
    if isBlank a then
      if word.isEmpty then wordsFrom isBlank [] as else word.reverse :: wordsFrom isBlank [] as
    else wordsFrom isBlank (a :: word) as

/-- The words of a text, in order. -/
def words (cs : List Char) : List (List Char) :=
  wordsFrom isBlank [] cs

/-- Whether a point is white space. -/
def isBlankPoint (p : Point) : Bool :=
  p.char?.any isBlank

/-- A text without white space at its end. -/
def stripRight (ps : Points) : Points :=
  (ps.reverse.dropWhile isBlankPoint).reverse

/-- A text without white space at its ends. -/
def stripped (ps : Points) : Points :=
  stripRight (ps.dropWhile isBlankPoint)

/-- A text on one line: its words, with one space between them. -/
def singleLine (ps : Points) : Points :=
  List.intercalate [.char ' '] (wordsFrom isBlankPoint [] ps)

end ScriptTree.Text
