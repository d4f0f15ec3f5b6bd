import ScriptTree.Shell.Pattern

/-!
Parting what words expand to into fields.
-/

namespace ScriptTree.Shell

/-- A byte of an expanded word with where it comes from, or a mark. -/
inductive Glyph where
  /-- A byte of the word itself, without quotes. -/
  | literal (c : Char)
  /-- A byte of an expansion without quotes: it may part fields. -/
  | expanded (c : Char)
  | quoted (c : Char)
  /-- Quotes, which make a field even if nothing is in them. -/
  | quotes
  /-- The end of one argument among all. -/
  | boundary
  deriving DecidableEq, Repr

/-- The byte of a glyph, and whether it only stands for itself. -/
def Glyph.byte? : Glyph → Option PatternByte
  | .literal c => some (c, false)
  | .expanded c => some (c, false)
  | .quoted c => some (c, true)
  | _ => none

/-- The bytes of some glyphs; arguments have spaces between them. -/
def bytesOfGlyphs (gs : List Glyph) : Bytes :=
  gs.filterMap fun g =>
    match g with
    | .boundary => some ' '
    | g => g.byte?.map (·.1)

/-- The bytes of some glyphs as those of a pattern. A backslash that comes from an expansion takes
the meaning of the next byte away. -/
def patternBytes : List Glyph → List PatternByte
  | .expanded '\\' :: gs => escaped gs
  | g :: gs =>
    match g.byte? with
    | some b => b :: patternBytes gs
    | none => patternBytes gs
  | [] => []
where
  /-- The bytes after a backslash. -/
  escaped : List Glyph → List PatternByte
    | g :: gs =>
      match g.byte? with
      | some (c, _) => (c, true) :: patternBytes gs
      | none => escaped gs
    | [] => [('\\', true)]

/-- The glyphs of some glyphs as a pattern. -/
def patternOfGlyphs (gs : List Glyph) : List PatternStep :=
  patternOf (patternBytes gs)

/-- The field begun: its glyphs, the last one first, whether it has begun at all, and whether space
has ended the one before it. -/
structure Field where
  glyphs : List Glyph
  isBegun : Bool
  afterSpace : Bool

/-- No field begun. -/
def Field.none (afterSpace : Bool) : Field := ⟨[], false, afterSpace⟩

/-- The field with one more glyph. -/
def Field.add (f : Field) (g : Glyph) : Field := ⟨g :: f.glyphs, true, false⟩

/-- Parts glyphs into fields. Spaces among the separators and the ends of arguments only end a field
that has begun; every other separator ends one. -/
def fieldsFrom (separators : Bytes) (f : Field) : List Glyph → List (List Glyph)
  | [] => if f.isBegun then [f.glyphs.reverse] else []
  | .boundary :: gs =>
    if f.isBegun then f.glyphs.reverse :: fieldsFrom separators (.none true) gs
    else fieldsFrom separators f gs
  | .expanded c :: gs =>
    if separators.contains c then
      if [' ', '\t', '\n'].contains c then
        if f.isBegun then f.glyphs.reverse :: fieldsFrom separators (.none true) gs
        else fieldsFrom separators f gs
      else if f.isBegun || !f.afterSpace then
        f.glyphs.reverse :: fieldsFrom separators (.none false) gs
      else fieldsFrom separators (.none false) gs
    else fieldsFrom separators (f.add (.expanded c)) gs
  | g :: gs => fieldsFrom separators (f.add g) gs

/-- Parts glyphs into fields. -/
def fieldsOf (separators : Bytes) (gs : List Glyph) : List (List Glyph) :=
  fieldsFrom separators (.none false) gs

/-! ## Lines that are read -/

/-- Whether a byte parts the fields of a line that is read, and whether it does so as a space. A byte
that was escaped parts none. -/
def parting (separators : Bytes) (b : PatternByte) : Bool × Bool :=
  let parts := !b.2 && separators.contains b.1
  (parts, parts && [' ', '\t', '\n'].contains b.1)

/-- The last value of a line that is read. What ends it goes, unless more than spaces and escaped bytes
follow: `kept` is what stays for sure and `pending` what goes if nothing follows, both with the last
byte first. -/
def lastValue (separators : Bytes) (afterSpace : Bool) (kept pending : Bytes) :
    List PatternByte → Bytes
  | [] => kept.reverse
  | b :: bs =>
    let (parts, isSpace) := parting separators b
    if isSpace then lastValue separators afterSpace kept (b.1 :: pending) bs
    else if parts && afterSpace then lastValue separators false kept (b.1 :: pending) bs
    else if b.2 && !pending.isEmpty then lastValue separators false kept (b.1 :: pending) bs
    else lastValue separators false (b.1 :: (pending ++ kept)) [] bs

/-- The values that a line gives to some number of variables: the last one takes all that is left.
`field` holds the bytes of the value in progress, the last one first. -/
def lineValues (separators : Bytes) : Nat → Bytes → Bool → List PatternByte → List Bytes
  | _, field, _, [] => if field.isEmpty then [] else [field.reverse]
  | left, field, afterSpace, b :: bs =>
    let (parts, isSpace) := parting separators b
    if afterSpace && parts then lineValues separators left [] isSpace bs
    else if !parts then lineValues separators left (b.1 :: field) false bs
    else if isSpace && field.isEmpty then lineValues separators left [] false bs
    else if left ≤ 1 then [lastValue separators isSpace field [b.1] bs]
    else field.reverse :: lineValues separators (left - 1) [] isSpace bs

/-- The values that `read` gives to some number of variables. -/
def readValues (separators : Bytes) (count : Nat) (line : List PatternByte) : List Bytes :=
  let values := lineValues separators count [] false line
  values ++ List.replicate (count - values.length) []

end ScriptTree.Shell
