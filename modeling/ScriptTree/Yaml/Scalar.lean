import ScriptTree.Yaml.Cursor
import ScriptTree.Yaml.Token

/-!
The text of scalars: plain, between quotes, or as a block. Line breaks inside a plain or quoted
scalar are folded: one becomes a space, and of several one is dropped.
-/

namespace ScriptTree.Yaml

/-- The text that a line break and the empty lines after it stand for. -/
def folded (first rest : List Char) : List Char :=
  (if first != ['\n'] then first else if rest.isEmpty then [' '] else []) ++ rest

/-! ## Plain scalars -/

/-- The number of characters of a plain scalar from here on one line, up to white space or an
indicator. -/
def plainLength (inFlow : Bool) : List Char → Nat
  | [] => 0
  | ch :: rest =>
    let after := rest.headD '\x00'
    let isFlowMark (c : Char) := c == ',' || c == '[' || c == ']' || c == '\x7b' || c == '\x7d'
    if isGap ch || (ch == ':' && (isGap after || (inFlow && isFlowMark after))) ||
        (inFlow && (ch == '?' || isFlowMark ch)) then 0
    else plainLength inFlow rest + 1

/-- Empty lines and indentation in a plain scalar, at most `fuel` of both; there are none before a
mark between documents. -/
def plainBreaks : Nat → Cursor → Option (List Char) × Cursor
  | 0, c => (some [], c)
  | fuel + 1, c =>
    if c.head == ' ' then plainBreaks fuel c.next
    else if isBreak c.head then
      let (first, c) := c.lineBreak
      if c.atAnySeparator then (none, c)
      else
        let (rest, c) := plainBreaks fuel c
        (rest.map (first ++ ·), c)
    else (some [], c)

/-- The white space between two parts of a plain scalar, the place after it, and whether it held a
line break. -/
def plainSpaces (c : Cursor) : List Char × Cursor × Bool :=
  let (spaces, c) := c.take (· == ' ')
  if isBreak c.head then
    let (first, c) := c.lineBreak
    if c.atAnySeparator then ([], c, true)
    else
      match plainBreaks c.text.length c with
      | (none, c) => ([], c, true)
      | (some rest, c) => (folded first rest, c, true)
  else (spaces, c, false)

/-- A plain scalar after the part before it and the white space `spaces`: its text, the place after
it, and whether a line break came after its last part. -/
def plainFrom (inFlow : Bool) (indent : Int) : Nat → List Char → Cursor →
    List Char × Cursor × Bool
  | 0, _, c => ([], c, false)
  | fuel + 1, spaces, c =>
    let length := if c.head == '#' then 0 else plainLength inFlow c.text
    if length = 0 then ([], c, false)
    else
      let part := spaces ++ c.front length
      let (spaces, c, broke) := plainSpaces (c.skip length)
      if spaces.isEmpty || c.head == '#' || (!inFlow && (c.column : Int) < indent) then
        (part, c, broke)
      else
        let length := plainLength inFlow c.text
        if length = 0 then (part, c, broke)
        else
          let (rest, c, broke) := plainFrom inFlow indent fuel spaces c
          (part ++ rest, c, broke)

/-! ## Quoted scalars -/

/-- What a letter after a backslash stands for. -/
def escapes : List (Char × Char) :=
  [('0', '\x00'), ('a', '\x07'), ('b', '\x08'), ('t', '\t'), ('\t', '\t'), ('n', '\n'),
   ('v', '\x0b'), ('f', '\x0c'), ('r', '\r'), ('e', '\x1b'), (' ', ' '), ('"', '"'),
   ('\\', '\\'), ('/', '/'), ('N', '\x85'), ('_', '\xa0'), ('L', '\u2028'), ('P', '\u2029')]

/-- The number of hexadecimal digits after a letter that announces some. -/
def escapeWidth? (c : Char) : Option Nat :=
  if c = 'x' then some 2 else if c = 'u' then some 4 else if c = 'U' then some 8 else none

/-- The number of a hexadecimal digit. -/
def hexValue? (c : Char) : Option Nat :=
  if c.isDigit then some (c.toNat - 0x30)
  else if 'a' ≤ c && c ≤ 'f' then some (c.toNat - 0x61 + 10)
  else if 'A' ≤ c && c ≤ 'F' then some (c.toNat - 0x41 + 10)
  else none

/-- The number with some hexadecimal digits. -/
def ofHex? (cs : List Char) : Option Nat :=
  cs.foldlM (fun n c => (hexValue? c).map (16 * n + ·)) 0

/-- Empty lines in a quoted scalar, at most `fuel` of them. No mark between documents may stand
inside quotes. -/
def quotedBreaks : Nat → Cursor → Except Fault (List Char × Cursor)
  | 0, c => .ok ([], c)
  | fuel + 1, c =>
    if c.atAnySeparator then .error .unclosedQuote
    else
      let c := c.drop fun ch => ch == ' ' || ch == '\t'
      if isBreak c.head then do
        let (first, c) := c.lineBreak
        let (rest, c) ← quotedBreaks fuel c
        pure (first ++ rest, c)
      else .ok ([], c)

/-- The character with a number. -/
def characterOf (n : Nat) : Except Fault Char :=
  if n ≤ 0x10ffff then .ok (Char.ofNat n)
  else .error (.badValue (if n < Nat.pow 2 31 then .notCharacter else .hugeCharacter))

/-- The second half of a character that two escapes of four digits give, if one is here. -/
def lowHalf? (c : Cursor) : Option Nat :=
  if c.front 2 == ['\\', 'u'] then
    match ofHex? ((c.skip 2).front 4) with
    | some n => if 0xdc00 ≤ n && n ≤ 0xdfff then some n else none
    | none => none
  else none

/-- What a backslash and what follows it stand for, and the place after it. -/
def escape (c : Cursor) : Except Fault (List Char × Cursor) :=
  let ch := c.head
  match escapes.lookup ch, escapeWidth? ch with
  | some found, _ => .ok ([found], c.next)
  | none, some width =>
    let digits := c.next.front width
    if digits.length < width then .error .badEscape
    else
      match ofHex? digits with
      | none => .error .badEscape
      | some n =>
        let c := c.next.skip width
        match lowHalf? c with
        | some low =>
          if 0xd800 ≤ n && n ≤ 0xdbff then
            .ok ([Char.ofNat (0x10000 + (n - 0xd800) * 0x400 + (low - 0xdc00))], c.skip 6)
          else do pure ([← characterOf n], c)
        | none => do pure ([← characterOf n], c)
  | none, none =>
    if isBreak ch then quotedBreaks c.text.length c.lineBreak.2
    else .error .badEscape

/-- White space inside quotes, and the place after it. -/
def quotedSpaces (c : Cursor) : Except Fault (List Char × Cursor) :=
  let (spaces, c) := c.take fun ch => ch == ' ' || ch == '\t'
  if atEnd c.head then .error .unclosedQuote
  else if isBreak c.head then do
    let (first, c) := c.lineBreak
    let (rest, c) ← quotedBreaks c.text.length c
    pure (folded first rest, c)
  else .ok (spaces, c)

/-- The rest of a scalar between double or single quotes, and the place after it. -/
def quotedFrom (double : Bool) : Nat → Cursor → Except Fault (List Char × Cursor)
  | 0, _ => .error .unclosedQuote
  | fuel + 1, c =>
    let quote := if double then '"' else '\''
    let ch := c.head
    if !double && ch == quote && c.peek 1 == quote then do
      let (rest, c) ← quotedFrom double fuel (c.skip 2)
      pure (quote :: rest, c)
    else if ch == quote then .ok ([], c.next)
    else if double && ch == '\\' then do
      let (first, c) ← escape c.next
      let (rest, c) ← quotedFrom double fuel c
      pure (first ++ rest, c)
    else if isGap ch then do
      let (first, c) ← quotedSpaces c
      let (rest, c) ← quotedFrom double fuel c
      pure (first ++ rest, c)
    else do
      let (rest, c) ← quotedFrom double fuel c.next
      pure (ch :: rest, c)

/-- A scalar between quotes, of which the first is here. -/
def quotedScalar (double : Bool) (c : Cursor) : Except Fault (List Char × Cursor) :=
  quotedFrom double (c.text.length + 1) c.next

/-! ## Block scalars -/

/-- What becomes of the line breaks at the end of a block: one stays, none, or all. -/
inductive Chomp where
  | clip
  | strip
  | keep
  deriving DecidableEq, Repr

/-- The sign that tells what becomes of the last line breaks. -/
def chompOf? (c : Char) : Option Chomp :=
  if c = '+' then some .keep else if c = '-' then some .strip else none

/-- The figure that tells the indentation. -/
def indentOf? (c : Char) : Option Nat :=
  if c.isDigit then some (c.toNat - 0x30) else none

/-- The signs after the indicator of a block, in either order, and the place after them. -/
def blockHeader (c : Cursor) : Except Fault (Chomp × Option Nat × Cursor) :=
  let (chomp, increment, c) : Option Chomp × Option Nat × Cursor :=
    match chompOf? c.head, indentOf? c.head with
    | some chomp, _ =>
      match indentOf? c.next.head with
      | some n => (some chomp, some n, c.next.next)
      | none => (some chomp, none, c.next)
    | none, some n =>
      match chompOf? c.next.head with
      | some chomp => (some chomp, some n, c.next.next)
      | none => (none, some n, c.next)
    | none, none => (none, none, c)
  if increment == some 0 || !isSpaceOrEnd c.head then .error .badBlockHeader
  else .ok (chomp.getD .clip, increment, c)

/-- The place after the rest of a line that holds nothing but spaces and a comment. -/
def restOfLine (fault : Fault) (c : Cursor) : Except Fault Cursor :=
  let c := c.dropSpaces
  let c := if c.head == '#' then c.dropLine else c
  if isLineEnd c.head then .ok c.lineBreak.2 else .error fault

/-- Empty lines before a block whose indentation is not known, the greatest column reached, and the
place after them. -/
def leadingBreaks : Nat → Nat → Cursor → List Char × Nat × Cursor
  | 0, greatest, c => ([], greatest, c)
  | fuel + 1, greatest, c =>
    if c.head == ' ' then leadingBreaks fuel (max greatest c.next.column) c.next
    else if isBreak c.head then
      let (first, c) := c.lineBreak
      let (rest, greatest, c) := leadingBreaks fuel greatest c
      (first ++ rest, greatest, c)
    else ([], greatest, c)

/-- Empty lines in a block, and the place after them and after the indentation. -/
def blockBreaks (indent : Nat) : Nat → Cursor → List Char × Cursor
  | 0, c => ([], c)
  | fuel + 1, c =>
    let c := c.dropIndent indent
    if isBreak c.head then
      let (first, c) := c.lineBreak
      let (rest, c) := blockBreaks indent fuel c
      (first ++ rest, c)
    else ([], c)

/-- The lines of a block from one that starts here, after the empty lines `before`: the text, the
last line break, the empty lines at the end, and the place after them. -/
def blockLines (folds : Bool) (indent : Nat) : Nat → List Char → Cursor →
    List Char × List Char × List Char × Cursor
  | 0, before, c => ([], [], before, c)
  | fuel + 1, before, c =>
    let startsFull := !(c.head == ' ' || c.head == '\t')
    let (line, c) := c.take (!isLineEnd ·)
    let (last, c) := c.lineBreak
    let (empty, c) := blockBreaks indent (c.text.length + 1) c
    if c.column = indent && !atEnd c.head then
      let joint :=
        if folds && last == ['\n'] && startsFull && !(c.head == ' ' || c.head == '\t') then
          if empty.isEmpty then [' '] else []
        else last
      let (rest, last, empty, c) := blockLines folds indent fuel empty c
      (before ++ line ++ joint ++ rest, last, empty, c)
    else (before ++ line, last, empty, c)

/-- A block scalar whose indicator is here, inside structure of the given indentation. -/
def blockScalar (folds : Bool) (parent : Int) (c : Cursor) : Except Fault (List Char × Cursor) := do
  let (chomp, increment, c) ← blockHeader c.next
  let c ← restOfLine .badBlockHeader c
  let least := (max (parent + 1) 1).toNat
  let (before, indent, c) :=
    match increment with
    | none =>
      let (before, greatest, c) := leadingBreaks c.text.length 0 c
      (before, max least greatest, c)
    | some n =>
      let indent := least + n - 1
      let (before, c) := blockBreaks indent (c.text.length + 1) c
      (before, indent, c)
  let (text, last, empty, c) :=
    if c.column = indent && !atEnd c.head then
      blockLines folds indent (c.text.length + 1) before c
    else ([], [], before, c)
  let tail := match chomp with
    | .strip => []
    | .clip => last
    | .keep => last ++ empty
  pure (text ++ tail, c)

end ScriptTree.Yaml
