import ScriptTree.Yaml.Scalar

/-!
The tokens of a YAML text.

Outside of brackets the indentation gives the structure: a deeper entry or key opens a sequence or
a mapping, and a line that starts further left closes those that are open to its right. A key on
one line is known as such only when its colon comes, so the place of every token that may be a key
is remembered, and the tokens for the key are put in there later. Such a key ends with its line and
is at most 1024 characters long.
-/

namespace ScriptTree.Yaml

/-- A place among the tokens where a key may begin. -/
structure KeyPlace where
  /-- The depth of brackets around it. -/
  depth : Nat
  /-- The number of tokens before it. -/
  token : Nat
  /-- Whether it must be a key, because nothing else may start at its column. -/
  isRequired : Bool
  index : Nat
  line : Nat
  column : Nat
  deriving Repr

/-- What is known while the tokens of a text are found. -/
structure Tokenizer where
  cursor : Cursor
  tokens : Array Token
  /-- The depth of brackets. -/
  depth : Nat
  /-- The column of the innermost sequence or mapping, and those of the ones around it. -/
  indent : Int
  indents : List Int
  /-- Whether a key may begin here. -/
  allowsKey : Bool
  keys : List KeyPlace

/-- The longest key, in characters. -/
def keyLimit : Nat := 1024

namespace Tokenizer

/-- The tokenizer at the start of a text. -/
def start (text : List Char) : Tokenizer :=
  { cursor := .start text, tokens := #[], depth := 0, indent := -1, indents := [],
    allowsKey := true, keys := [] }

/-- Whether the text is inside brackets here. -/
def inFlow (t : Tokenizer) : Bool :=
  t.depth != 0

/-- Adds a token. -/
def push (t : Tokenizer) (token : Token) : Tokenizer :=
  { t with tokens := t.tokens.push token }

/-- Moves on by `n` characters. -/
def skip (t : Tokenizer) (n : Nat) : Tokenizer :=
  { t with cursor := t.cursor.skip n }

/-- White space, comments and line breaks, at most `fuel` lines of them. Outside of brackets a key
may begin on a new line. -/
def skipBlank : Nat → Tokenizer → Tokenizer
  | 0, t => t
  | fuel + 1, t =>
    let c := t.cursor.dropSpaces
    let c := if c.head == '#' then c.dropLine else c
    if isBreak c.head then
      skipBlank fuel
        { t with cursor := c.lineBreak.2, allowsKey := t.allowsKey || !t.inFlow }
    else { t with cursor := c }

/-- Forgets the places where a key can no longer have begun. -/
def dropStaleKeys (t : Tokenizer) : Except Fault Tokenizer :=
  let isStale (k : KeyPlace) : Bool :=
    k.line != t.cursor.line || k.index + keyLimit < t.cursor.index
  if t.keys.any fun k => isStale k && k.isRequired then .error .keyWithoutValue
  else .ok { t with keys := t.keys.filter fun k => !isStale k }

/-- Forgets the place for a key at this depth. -/
def dropKey (t : Tokenizer) : Except Fault Tokenizer :=
  if t.keys.any fun k => k.depth == t.depth && k.isRequired then .error .keyWithoutValue
  else .ok { t with keys := t.keys.filter (·.depth != t.depth) }

/-- Remembers that a key may begin here. -/
def saveKey (t : Tokenizer) : Except Fault Tokenizer := do
  if t.allowsKey then
    let c := t.cursor
    let key : KeyPlace :=
      { depth := t.depth, token := t.tokens.size
        isRequired := !t.inFlow && t.indent == (c.column : Int)
        index := c.index, line := c.line, column := c.column }
    let t ← t.dropKey
    pure { t with keys := key :: t.keys }
  else pure t

/-- Closes the `open` sequences and mappings that lie to the right of a column. -/
def closeFrom (column : Int) : List Int → Tokenizer → Tokenizer
  | [], t => t
  | outer :: rest, t =>
    if column < t.indent then
      closeFrom column rest { t.push .blockEnd with indent := outer, indents := rest }
    else t

/-- Closes all sequences and mappings to the right of a column; brackets keep them open. -/
def unwind (t : Tokenizer) (column : Int) : Tokenizer :=
  if t.inFlow then t else closeFrom column t.indents t

/-- Opens a sequence or mapping at a column if it is further right than the innermost one; its
token goes to a place among the tokens. -/
def openAt (t : Tokenizer) (column place : Nat) (token : Token) : Tokenizer :=
  if t.indent < (column : Int) then
    { t with
      indent := column
      indents := t.indent :: t.indents
      tokens := t.tokens.insertIdxIfInBounds place token }
  else t

/-- Opens a sequence or mapping here. -/
def openHere (t : Tokenizer) (token : Token) : Tokenizer :=
  t.openAt t.cursor.column t.tokens.size token

/-! ## Names, tags and directives -/

/-- An anchor or alias, with the name after its indicator. -/
def name (t : Tokenizer) (make : String → Token) : Except Fault Tokenizer :=
  let (found, c) := t.cursor.next.take isWordChar
  let endsName (ch : Char) : Bool := isGap ch || "?:,]\x7d%@\x60".toList.contains ch
  if found.isEmpty || !endsName c.head then .error .badName
  else .ok { t.push (make (String.ofList found)) with cursor := c }

/-- The characters of a tag, without escapes. -/
def isTagChar (c : Char) : Bool :=
  c.isAlphanum || "-;/?:@&=+$,_.!~*'()[]".toList.contains c

/-- The bytes that a run of escapes in a tag stands for. -/
def tagBytes : List Char → Option (List UInt8 × List Char)
  | '%' :: a :: b :: rest => do
    let n ← ofHex? [a, b]
    let (bytes, rest) ← tagBytes rest
    pure (UInt8.ofNat n :: bytes, rest)
  | '%' :: _ => none
  | rest => some ([], rest)

/-- The number of characters of a tag here, escapes included. -/
def tagLength (c : Cursor) : Nat :=
  c.count fun ch => isTagChar ch || ch == '%'

/-- A tag's characters with its escapes resolved, at most `fuel` of them. -/
def tagText : Nat → List Char → Option (List Char)
  | _, [] => some []
  | 0, _ => none
  | fuel + 1, ch :: rest =>
    if ch = '%' then do
      let (bytes, rest) ← tagBytes (ch :: rest)
      let text ← (decodeTag bytes)
      let more ← tagText fuel rest
      pure (text ++ more)
    else (tagText fuel rest).map (ch :: ·)
where
  /-- The text of escaped bytes. -/
  decodeTag (bytes : List UInt8) : Option (List Char) :=
    (String.fromUTF8? ⟨bytes.toArray⟩).map String.toList

/-- The tag here, and the place after it. -/
def tagHere (c : Cursor) : Except Fault (String × Cursor) :=
  let n := tagLength c
  match tagText n (c.front n) with
  | some text => if n = 0 then .error .badTag else .ok (String.ofList text, c.skip n)
  | none => .error .badTag

/-- The handle of a tag here, and the place after it. -/
def handleHere (c : Cursor) : Except Fault (String × Cursor) :=
  if c.head != '!' then .error .badTag
  else if c.peek 1 == ' ' then .ok ("!", c.next)
  else
    let (word, after) := c.next.take isWordChar
    if after.head == '!' then .ok (String.ofList ('!' :: word ++ ['!']), after.next)
    else .error .badTag

/-- Whether the tag here has a handle of more than one character. -/
def hasHandle (c : Cursor) : Bool :=
  (c.next.text.takeWhile fun ch => !isSpaceOrEnd ch).contains '!'

/-- The tag of a node, whose indicator is here. -/
def nodeTag (c : Cursor) : Except Fault (Token × Cursor) := do
  let (token, c) ←
    if c.peek 1 == '<' then do
      let (suffix, c) ← tagHere (c.skip 2)
      if c.head != '>' then throw .badTag
      pure (Token.tag none suffix, c.next)
    else if isGap (c.peek 1) then pure (Token.tag none "!", c.next)
    else if hasHandle c then do
      let (handle, c) ← handleHere c
      let (suffix, c) ← tagHere c
      pure (Token.tag (some handle) suffix, c)
    else do
      let (suffix, c) ← tagHere c.next
      pure (Token.tag (some "!") suffix, c)
  if isSpaceOrEnd c.head then pure (token, c) else throw .badTag

/-- A number in a directive, and the place after it. -/
def directiveNumber (c : Cursor) : Except Fault (Nat × Cursor) :=
  let (digits, after) := c.take Char.isDigit
  match Integer.read (String.ofList digits) with
  | .ok n => .ok (n.toNat, after)
  | .error (.tooLong digits) => .error (.badValue (.integerTooLong digits))
  | .error .malformed => .error .badDirective

/-- A directive, whose indicator is here. -/
def directive (c : Cursor) : Except Fault (Token × Cursor) := do
  let (word, c) := c.next.take isWordChar
  if word.isEmpty || !isSpaceOrEnd c.head then throw .badDirective
  let (token, c) ←
    if word == "YAML".toList then do
      let (major, c) ← directiveNumber c.dropSpaces
      if c.head != '.' then throw .badDirective
      let (minor, c) ← directiveNumber c.next
      if !isSpaceOrEnd c.head then throw .badDirective
      pure (Token.version major minor, c)
    else if word == "TAG".toList then do
      let (handle, c) ← handleHere c.dropSpaces
      if c.head != ' ' then throw .badDirective
      let (tags, c) ← tagHere c.dropSpaces
      if !isSpaceOrEnd c.head then throw .badDirective
      pure (Token.tagHandle handle tags, c)
    else pure (Token.otherDirective, c.dropLine)
  let c ← restOfLine .badDirective c
  pure (token, c)

/-! ## The next token -/

/-- Ends all structure before a directive or a mark between documents. -/
def endDocument (t : Tokenizer) : Except Fault Tokenizer := do
  let t ← (t.unwind (-1)).dropKey
  pure { t with allowsKey := false }

/-- A mark between documents. -/
def separator (t : Tokenizer) (token : Token) : Except Fault Tokenizer := do
  let t ← t.endDocument
  pure ((t.push token).skip 3)

/-- An opening bracket. -/
def openFlow (t : Tokenizer) (token : Token) : Except Fault Tokenizer := do
  let t ← t.saveKey
  pure ({ t with depth := t.depth + 1, allowsKey := true }.push token |>.skip 1)

/-- A closing bracket. -/
def closeFlow (t : Tokenizer) (token : Token) : Except Fault Tokenizer := do
  let t ← t.dropKey
  if t.depth = 0 then throw (.unexpected token)
  pure ({ t with depth := t.depth - 1, allowsKey := false }.push token |>.skip 1)

/-- The comma in brackets. -/
def flowEntry (t : Tokenizer) : Except Fault Tokenizer := do
  let t ← t.dropKey
  pure ({ t with allowsKey := true }.push .flowEntry |>.skip 1)

/-- The hyphen of an entry. -/
def blockEntry (t : Tokenizer) : Except Fault Tokenizer := do
  if !t.inFlow && !t.allowsKey then throw .misplaced
  let t := if t.inFlow then t else t.openHere .blockSequence
  let t ← t.dropKey
  pure ({ t with allowsKey := true }.push .blockEntry |>.skip 1)

/-- The question mark of a key. -/
def explicitKey (t : Tokenizer) : Except Fault Tokenizer := do
  if !t.inFlow && !t.allowsKey then throw .misplaced
  let t := if t.inFlow then t else t.openHere .blockMapping
  let t ← t.dropKey
  pure ({ t with allowsKey := !t.inFlow }.push .key |>.skip 1)

/-- The colon of a value. If a key may have begun at this depth it did. -/
def mappingValue (t : Tokenizer) : Except Fault Tokenizer :=
  match t.keys.find? (·.depth == t.depth) with
  | some k =>
    let t := { t with
      keys := t.keys.filter (·.depth != t.depth)
      tokens := t.tokens.insertIdxIfInBounds k.token .key }
    let t := if t.inFlow then t else t.openAt k.column k.token .blockMapping
    .ok ({ t with allowsKey := false }.push .value |>.skip 1)
  | none => do
    if !t.inFlow && !t.allowsKey then throw .misplaced
    let t := if t.inFlow then t else t.openHere .blockMapping
    let t ← t.dropKey
    pure ({ t with allowsKey := !t.inFlow }.push .value |>.skip 1)

/-- A name or tag, which may begin a key. -/
def property (t : Tokenizer) (f : Tokenizer → Except Fault Tokenizer) : Except Fault Tokenizer := do
  let t ← t.saveKey
  f { t with allowsKey := false }

/-- A scalar between quotes. -/
def quoted (t : Tokenizer) (double : Bool) : Except Fault Tokenizer :=
  t.property fun t => do
    let (text, c) ← quotedScalar double t.cursor
    pure { t.push (.scalar (String.ofList text) false) with cursor := c }

/-- A plain scalar. -/
def plain (t : Tokenizer) : Except Fault Tokenizer :=
  t.property fun t =>
    let (text, c, broke) :=
      plainFrom t.inFlow (t.indent + 1) (t.cursor.text.length + 1) [] t.cursor
    .ok { t.push (.scalar (String.ofList text) true) with cursor := c, allowsKey := broke }

/-- A block scalar. -/
def block (t : Tokenizer) (folds : Bool) : Except Fault Tokenizer := do
  let t ← { t with allowsKey := true }.dropKey
  let (text, c) ← blockScalar folds t.indent t.cursor
  pure { t.push (.scalar (String.ofList text) false) with cursor := c }

/-- The characters that no plain scalar begins with, unless a full character follows some of
them. -/
def indicators : List Char :=
  ['-', '?', ':', ',', '[', ']', '\x7b', '\x7d', '#', '&', '*', '!', '|', '>', '\'', '"', '%',
   '@', '\x60']

/-- Whether a plain scalar begins here. -/
def startsPlain (t : Tokenizer) : Bool :=
  let c := t.cursor
  let ch := c.head
  (!isGap ch && !indicators.contains ch) ||
    (!isGap (c.peek 1) && (ch == '-' || (!t.inFlow && (ch == '?' || ch == ':'))))

/-- The next token or, at the end of the text, none. -/
def next (t : Tokenizer) : Except Fault (Option Tokenizer) := do
  let t ← (skipBlank (t.cursor.text.length + 1) t).dropStaleKeys
  let t := t.unwind t.cursor.column
  let c := t.cursor
  let ch := c.head
  let standsAlone := t.inFlow || isGap (c.peek 1)
  if atEnd ch then pure none
  else if ch == '%' && c.column == 0 then do
    let t ← t.endDocument
    let (token, c) ← directive t.cursor
    pure (some { t.push token with cursor := c })
  else some <$>
    if c.column == 0 && c.atSeparator '-' then t.separator .documentStart
    else if c.column == 0 && c.atSeparator '.' then t.separator .documentEnd
    else if ch == '[' then t.openFlow .flowSequence
    else if ch == '\x7b' then t.openFlow .flowMapping
    else if ch == ']' then t.closeFlow .flowSequenceEnd
    else if ch == '\x7d' then t.closeFlow .flowMappingEnd
    else if ch == ',' then t.flowEntry
    else if ch == '-' && isGap (c.peek 1) then t.blockEntry
    else if ch == '?' && standsAlone then t.explicitKey
    else if ch == ':' && standsAlone then t.mappingValue
    else if ch == '*' then t.property (·.name .alias)
    else if ch == '&' then t.property (·.name .anchor)
    else if ch == '!' then t.property fun t => do
      let (token, c) ← nodeTag t.cursor
      pure { t.push token with cursor := c }
    else if ch == '|' && !t.inFlow then t.block false
    else if ch == '>' && !t.inFlow then t.block true
    else if ch == '\'' then t.quoted false
    else if ch == '"' then t.quoted true
    else if t.startsPlain then t.plain
    else throw .strangeCharacter

/-- The tokens before the first one that may still turn out to begin a key. -/
def settled (t : Tokenizer) : List Token :=
  (t.tokens.toList).take (t.keys.foldl (fun n k => min n k.token) t.tokens.size)

end Tokenizer

/-- The tokens of a text and, if it goes wrong somewhere, the fault that comes after them. Of the
tokens before a fault only those count that no key can change any more. -/
structure TokenList where
  tokens : List Token
  fault : Option Fault

namespace TokenList

/-- The tokens up to a fault. -/
def brokenAt (t : Tokenizer) (fault : Fault) : TokenList :=
  match t.dropStaleKeys with
  | .ok t => ⟨t.settled, some fault⟩
  | .error earlier => ⟨t.settled, some earlier⟩

/-- The end of all structure at the end of the text. -/
def atEnd (t : Tokenizer) : Except Fault Tokenizer := do
  let t ← (Tokenizer.skipBlank (t.cursor.text.length + 1) t).dropStaleKeys
  t.endDocument

/-- All tokens from here, at most `fuel` of those that the text itself holds. -/
def ofTokenizer : Nat → Tokenizer → TokenList
  | 0, t => brokenAt t .strangeCharacter
  | fuel + 1, t =>
    match t.next with
    | .error fault => brokenAt t fault
    | .ok (some t) => ofTokenizer fuel t
    | .ok none =>
      match atEnd t with
      | .ok t => ⟨(t.push .textEnd).tokens.toList, none⟩
      | .error fault => brokenAt t fault

/-- The tokens of a text. A byte order mark at its start is dropped. -/
def ofChars (text : List Char) : TokenList :=
  if text.any fun c => !isAllowed c then ⟨[], some .forbiddenCharacter⟩
  else
    let text := if text.head? == some '\ufeff' then text.drop 1 else text
    ofTokenizer (text.length + 1) (.start text)

end TokenList

end ScriptTree.Yaml
