import ScriptTree.Shell.State

/-!
The names of files that a pattern matches. A pattern is matched part by part, and a slash is only
matched by itself.
-/

namespace ScriptTree.Shell

/-- The parts of a pattern between slashes. -/
def patternParts (bytes : List PatternByte) : List (List PatternByte) :=
  bytes.foldr (fun b parts =>
    if b.1 = '/' then [] :: parts
    else
      match parts with
      | part :: rest => (b :: part) :: rest
      | [] => [[b]]) [[]]

/-- Whether a part of a pattern matches more than one name. -/
def isOpen (part : List PatternByte) : Bool :=
  isPattern (patternOf part)

namespace State

/-- The names in a directory that a part of a pattern matches. A name that begins with a point is
only matched by one. -/
def namesLike (s : State) (directory : Bytes) (part : List PatternByte) : List Bytes :=
  let word := if directory.isEmpty then ['.'] else directory
  match s.placeOf word, s.isDirectory word with
  | .ok place, true =>
    let names := (s.files.names place).map bytesOf ++ [['.'], ['.', '.']]
    let steps := patternOf part
    names.filter fun n =>
      PatternStep.matchesAll steps n &&
        (n.head? != some '.' || (part.head?.map (·.1)) == some '.')
  | _, _ => []

/-- The paths that begin with `directory` and go on as the parts of a pattern tell. -/
def pathsLike (s : State) (directory : Bytes) : List (List PatternByte) → List Bytes
  | [] => []
  | [part] =>
    if isOpen part then (s.namesLike directory part).map (directory ++ ·)
    else
      let path := directory ++ part.map (·.1)
      if s.isThere path then [path] else []
  | part :: parts =>
    if isOpen part then
      (s.namesLike directory part).flatMap fun n => s.pathsLike (directory ++ n ++ ['/']) parts
    else s.pathsLike (directory ++ part.map (·.1) ++ ['/']) parts

/-- The paths that a pattern matches, in order. -/
def namesMatching (s : State) (bytes : List PatternByte) : List Bytes :=
  let parts := patternParts bytes
  if parts.any isOpen then (s.pathsLike [] parts).mergeSort fun a b => !decide (b < a) else []

end State
end ScriptTree.Shell
