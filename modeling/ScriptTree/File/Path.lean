/-!
Paths of files. Their text is brought to one form: single slashes, no dots for the directory itself
and no slash at the end; two dots for the directory above stay.
-/

namespace ScriptTree

/-- A path: what stands before its parts (nothing, or slashes for the root), and the parts. -/
structure Path where
  root : String
  parts : List String
  deriving DecidableEq, Repr

namespace Path

/-- The pieces of a text between slashes. -/
def split (cs : List Char) : List String :=
  (go [] cs).map String.ofList
where
  /-- The pieces, where `piece` holds the last one begun, its last character first. -/
  go (piece : List Char) : List Char → List (List Char)
    | [] => [piece.reverse]
    | c :: cs => if c = '/' then piece.reverse :: go [] cs else go (c :: piece) cs

/-- Reads a path. Exactly two slashes at the start are kept. -/
def ofText (s : String) : Path :=
  let cs := s.toList
  let slashes := (cs.takeWhile (· == '/')).length
  { root := if slashes = 0 then "" else if slashes = 2 then "//" else "/"
    parts := (split cs).filter fun p => !p.isEmpty && p != "." }

/-- The text of a path; the path without parts is the directory itself. -/
def text (p : Path) : String :=
  let body := "/".intercalate p.parts
  if p.root.isEmpty && p.parts.isEmpty then "." else p.root ++ body

/-- Whether the path starts at the root. -/
def isAbsolute (p : Path) : Bool :=
  !p.root.isEmpty

/-- The last part. -/
def name (p : Path) : String :=
  p.parts.getLast?.getD ""

/-- The path without its last part. -/
def parent (p : Path) : Path :=
  { p with parts := p.parts.dropLast }

/-- The path with another last part. -/
def withName (p : Path) (name : String) : Path :=
  { p with parts := p.parts.dropLast ++ [name] }

/-- The path of something below. -/
def child (p : Path) (name : String) : Path :=
  { p with parts := p.parts ++ [name] }

/-- The parts that remain when each pair of dots has led one part up. -/
def climb (above : List String) : List String → List String
  | [] => above
  | part :: parts => climb (if part = ".." then above.dropLast else above ++ [part]) parts

/-- The text of the place that a path leads to from the working directory with the text `home`. -/
def absolute (p : Path) (home : String) : String :=
  let start := if p.isAbsolute then { p with parts := [] } else ofText home
  { start with parts := climb start.parts p.parts }.text

/-- Splits a name at its last point; a point at the start or at the end does not count. -/
def splitName (name : String) : String × String :=
  let cs := name.toList
  let after := cs.reverse.takeWhile (· != '.')
  let place := cs.length - after.length - 1
  if cs.contains '.' && 0 < place && !after.isEmpty then
    (String.ofList (cs.take place), String.ofList (cs.drop place))
  else (name, "")

/-- The name without its suffix. -/
def stem (p : Path) : String :=
  (splitName p.name).1

/-- The suffix of the name, with its point. -/
def suffix (p : Path) : String :=
  (splitName p.name).2

end Path
end ScriptTree
