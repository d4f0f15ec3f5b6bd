import ScriptTree.File.Path

/-!
The files of a machine as seen from a working directory, as a value: what stands at a path, reading,
and the changes a program makes. Below the working directory everything is known, beyond it only
what is listed.
-/

namespace ScriptTree

/-- What stands at a place. -/
inductive FileEntry where
  | file (content : List UInt8)
  | directory
  /-- A device that holds nothing. -/
  | device
  /-- A file of another user, neither to be read nor to be written. -/
  | closedFile (content : List UInt8)
  /-- A directory of another user, neither to be read nor to be searched. -/
  | closedDirectory
  deriving DecidableEq, Repr

namespace FileEntry

/-- Whether it is a file. -/
def isFile : FileEntry → Bool
  | .file _ => true
  | .closedFile _ => true
  | _ => false

/-- Whether it is a directory. -/
def isDirectory : FileEntry → Bool
  | .directory => true
  | .closedDirectory => true
  | _ => false

end FileEntry

/-- The files of a machine. A directory need not be listed if something in it is. -/
structure FileStore where
  /-- What stands below the working directory. -/
  entries : List (List String × FileEntry)
  /-- What stands elsewhere, under the parts of absolute paths. -/
  outside : List (List String × FileEntry)
  /-- The number of directories above the working directory. -/
  depth : Nat
  deriving Repr

/-- Why nothing is found at a path, or why it is not read. -/
inductive FileFault where
  | missing
  | notDirectory
  | isDirectory
  | nameTooLong
  /-- A null character, which no path holds. -/
  | nullCharacter
  /-- A directory on the way is another user's, or what stands there is. -/
  | denied
  deriving DecidableEq, Repr

/-- The wording of a fault at the path with the given text. -/
def FileFault.message (quotedPath : String) : FileFault → String
  | .missing => s!"[Errno 2] No such file or directory: {quotedPath}"
  | .notDirectory => s!"[Errno 20] Not a directory: {quotedPath}"
  | .isDirectory => s!"[Errno 21] Is a directory: {quotedPath}"
  | .nameTooLong => s!"[Errno 36] File name too long: {quotedPath}"
  | .nullCharacter => "embedded null byte"
  | .denied => s!"[Errno 13] Permission denied: {quotedPath}"

/-- The kind of error that a fault is. -/
def FileFault.kind : FileFault → String
  | .missing => "FileNotFoundError"
  | .notDirectory => "NotADirectoryError"
  | .isDirectory => "IsADirectoryError"
  | .nameTooLong => "OSError"
  | .nullCharacter => "ValueError"
  | .denied => "PermissionError"

/-- Whether a fault bars the way: what stands at the path cannot even be asked for. The others say that
nothing does. -/
def FileFault.isBar : FileFault → Bool
  | .nameTooLong => true
  | .denied => true
  | _ => false

/-- A place of a machine: below its working directory, some levels above it, elsewhere, or in a
directory of which nothing is known. -/
inductive FilePlace where
  | below (parts : List String)
  | above (levels : Nat)
  | elsewhere (parts : List String)
  | unknown
  deriving DecidableEq, Repr

namespace FileStore

/-- No files. -/
def empty : FileStore := ⟨[], [], 2⟩

/-- What stands at a place among some entries. -/
def entryIn? (entries : List (List String × FileEntry)) (place : List String) : Option FileEntry :=
  match entries.find? (·.1 == place) with
  | some e => some e.2
  | none =>
    if place.isEmpty || entries.any fun e => place.isPrefixOf e.1 then some .directory else none

/-- What stands at a place below the working directory. -/
def at? (s : FileStore) (place : List String) : Option FileEntry :=
  entryIn? s.entries place

/-- What stands at a place. -/
def entry? (s : FileStore) : FilePlace → Option FileEntry
  | .below parts => s.at? parts
  | .above _ => some .directory
  | .elsewhere parts => entryIn? s.outside parts
  | .unknown => none

/-! ## Finding -/

/-- The most bytes that a name has. -/
def longestName : Nat := 255

/-- A number of bytes that the text of a path does not reach. -/
def pathLimit : Nat := 4096

/-- The place above one; the root is above itself. -/
def placeAbove (s : FileStore) : FilePlace → FilePlace
  | .below [] => if 1 < s.depth then .above 1 else .elsewhere []
  | .below parts => .below parts.dropLast
  | .above levels => if levels + 1 < s.depth then .above (levels + 1) else .elsewhere []
  | .elsewhere parts => .elsewhere parts.dropLast
  | .unknown => .unknown

/-- The place of a name in a directory. -/
def placeIn : FilePlace → String → FilePlace
  | .below parts, name => .below (parts ++ [name])
  | .elsewhere parts, name => .elsewhere (parts ++ [name])
  | _, _ => .unknown

/-- The place that a part of a path leads to; two dots lead up. -/
def step (s : FileStore) (place : FilePlace) (part : String) : Except FileFault FilePlace :=
  match s.entry? place with
  | none => .error .missing
  | some .directory =>
    if part = ".." then .ok (s.placeAbove place)
    else if longestName < part.utf8ByteSize then .error .nameTooLong
    else .ok (placeIn place part)
  | some .closedDirectory => .error .denied
  | some _ => .error .notDirectory

/-- Follows the parts of a path from a place. -/
def follow (s : FileStore) (place : FilePlace) : List String → Except FileFault FilePlace
  | [] => .ok place
  | part :: parts =>
    match s.step place part with
    | .ok next => follow s next parts
    | .error fault => .error fault

/-- The place where a path starts. -/
def top (p : Path) : FilePlace :=
  if p.isAbsolute then .elsewhere [] else .below []

/-- Why a path leads nowhere whatever stands there, if so. -/
def pathFault? (p : Path) : Option FileFault :=
  if p.parts.any (·.toList.contains '\x00') then some .nullCharacter
  else if pathLimit ≤ p.text.utf8ByteSize then some .nameTooLong
  else none

/-- The place that a path leads to. Nothing need stand there, but all before it is a directory. -/
def placeOf (s : FileStore) (p : Path) : Except FileFault FilePlace :=
  match pathFault? p with
  | some fault => .error fault
  | none => s.follow (top p) p.parts

/-- What stands at a path, or why nothing does. -/
def find (s : FileStore) (p : Path) : Except FileFault FileEntry :=
  match s.placeOf p with
  | .error fault => .error fault
  | .ok place =>
    match s.entry? place with
    | some e => .ok e
    | none => .error .missing

/-- The place of the directory that a path's last part is in, if the path leads there. -/
def homeOf? (s : FileStore) (p : Path) : Option FilePlace :=
  match pathFault? p, s.follow (top p) p.parent.parts with
  | none, .ok home => some home
  | _, _ => none

/-- What stands at a path, if anything does, unless the way there is barred. -/
def lookup (s : FileStore) (p : Path) : Except FileFault (Option FileEntry) :=
  match s.find p with
  | .ok e => .ok (some e)
  | .error fault => if fault.isBar then .error fault else .ok none

/-- Whether something stands at a path. -/
def pathExists (s : FileStore) (p : Path) : Bool :=
  match s.find p with
  | .ok _ => true
  | .error _ => false

/-- Whether a file stands at a path. -/
def isFile (s : FileStore) (p : Path) : Bool :=
  match s.find p with
  | .ok e => e.isFile
  | .error _ => false

/-- Whether a directory stands at a path. -/
def isDirectory (s : FileStore) (p : Path) : Bool :=
  match s.find p with
  | .ok e => e.isDirectory
  | .error _ => false

/-- The content of the file at a path. -/
def read (s : FileStore) (p : Path) : Except FileFault (List UInt8) :=
  match s.find p with
  | .ok (.file content) => .ok content
  | .ok .device => .ok []
  | .ok .directory => .error .isDirectory
  | .ok (.closedFile _) => .error .denied
  | .ok .closedDirectory => .error .denied
  | .error e => .error e

/-! ## Changes -/

/-- Puts an entry at a place among some entries. -/
def putIn (entries : List (List String × FileEntry)) (place : List String) (e : FileEntry) :
    List (List String × FileEntry) :=
  entries.filter (·.1 != place) ++ [(place, e)]

/-- Takes all that stands at a place and below it away from some entries; the directory it was in
stays. -/
def removeIn (entries : List (List String × FileEntry)) (place : List String) :
    List (List String × FileEntry) :=
  let rest := entries.filter fun e => !place.isPrefixOf e.1
  let home := place.dropLast
  if (entryIn? rest home).isSome then rest else rest ++ [(home, .directory)]

/-- Gives all that stands at a place and below it among some entries another place, where it
replaces what stood there. -/
def moveIn (entries : List (List String × FileEntry)) (source target : List String) :
    List (List String × FileEntry) :=
  (entries.filter (·.1 != target)).map fun e =>
    if source.isPrefixOf e.1 then (target ++ e.1.drop source.length, e.2) else e

/-- Puts an entry at a place below the working directory. -/
def put (s : FileStore) (place : List String) (e : FileEntry) : FileStore :=
  { s with entries := putIn s.entries place e }

/-- Puts an entry at a place, if it can be. -/
def putAt (s : FileStore) (place : FilePlace) (e : FileEntry) : FileStore :=
  match place with
  | .below parts => s.put parts e
  | .elsewhere parts => { s with outside := putIn s.outside parts e }
  | _ => s

/-- Takes all that stands at a place and below it away; the directory it was in stays. -/
def removeAt (s : FileStore) (place : FilePlace) : FileStore :=
  match place with
  | .below parts => { s with entries := removeIn s.entries parts }
  | .elsewhere parts => { s with outside := removeIn s.outside parts }
  | _ => s

/-- Gives all that stands at a place and below it another place, where it replaces what stood
there. -/
def move (s : FileStore) (source target : FilePlace) : FileStore :=
  match source, target with
  | .below parts, .below parts' => { s with entries := moveIn s.entries parts parts' }
  | .elsewhere parts, .elsewhere parts' => { s with outside := moveIn s.outside parts parts' }
  | _, _ => s

/-- Makes the directories on a way from a place where they are missing, and gives the place it leads
to. What was made before a fault stays. -/
def makeWay (s : FileStore) (place : FilePlace) :
    List String → Except FileFault FilePlace × FileStore
  | [] => (.ok place, s)
  | part :: parts =>
    match s.step place part with
    | .error fault => (.error fault, s)
    | .ok next =>
      match s.entry? next with
      | some .directory => makeWay s next parts
      | some .closedDirectory => makeWay s next parts
      | some _ => (.error .notDirectory, s)
      | none => makeWay (s.putAt next .directory) next parts

/-- Makes the directory at a path and all above it. -/
def makeDirectory (s : FileStore) (p : Path) : Except FileFault FilePlace × FileStore :=
  match pathFault? p with
  | some fault => (.error fault, s)
  | none => s.makeWay (top p) p.parts

/-- Puts an entry at a path; the directories on the way to it are made. -/
def write (s : FileStore) (p : Path) (e : FileEntry) : FileStore :=
  match s.makeDirectory p.parent with
  | (.error _, s) => s
  | (.ok home, s) =>
    match s.step home p.name with
    | .error _ => s
    | .ok place => s.putAt place e

/-- The names directly in a directory among some entries, each once. -/
def namesIn (entries : List (List String × FileEntry)) (place : List String) : List String :=
  (entries.filterMap fun e =>
    if place.isPrefixOf e.1 then e.1[place.length]? else none).eraseDups

/-- The names directly in the directory at a place, as far as they are known. -/
def names (s : FileStore) : FilePlace → List String
  | .below parts => namesIn s.entries parts
  | .elsewhere parts => namesIn s.outside parts
  | _ => []

/-- The names directly in the directory at a place, each once, with what stands there. -/
def list (s : FileStore) (place : FilePlace) : List (String × FileEntry) :=
  (s.names place).filterMap fun name => (s.entry? (placeIn place name)).map (name, ·)

end FileStore
end ScriptTree
