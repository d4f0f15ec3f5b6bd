import ScriptTree.File.Store
import ScriptTree.Log.Objects

/-!
The log file. A line is appended for each event. A file that has grown too large is put aside first
under a name that tells when; of the files put aside the five with the greatest names are kept.
-/

namespace ScriptTree.Log

/-- The number of files put aside that are kept. -/
def keptFiles : Nat := 5

/-- Whether a name is one under which the log file is put aside: the log's own stem, a point,
anything, and the log's suffix. -/
def isPutAside (stem suffix name : String) : Bool :=
  let cs := name.toList
  let front := stem.toList ++ ['.']
  let back := suffix.toList
  front.isPrefixOf cs && back.isSuffixOf cs && front.length + back.length ≤ cs.length

/-- Removes files with the given names in a directory one after the other; a directory among them
ends it. -/
def removeAll (home : FilePlace) : FileStore → List (String × FileEntry) → FileStore
  | files, [] => files
  | files, (name, e) :: rest =>
    if e.isDirectory then files
    else removeAll home (files.removeAt (FileStore.placeIn home name)) rest

/-- The size that a directory itself counts for. -/
def directorySize : Int := 4096

/-- The name under which a log file is put aside at the moment with the given stamp. -/
def asideName (path : Path) (stamp : String) : String :=
  path.stem ++ "." ++ stamp ++ path.suffix

/-- Whether a file in the directory of a path can have a name. -/
def takesName (path : Path) (name : String) : Bool :=
  name.utf8ByteSize ≤ FileStore.longestName && (FileStore.pathFault? (path.withName name)).isNone

/-- Removes the files put aside in a directory but for those with the greatest names. -/
def prune (path : Path) (home : FilePlace) (files : FileStore) : FileStore :=
  let old := (files.list home).filter fun e => isPutAside path.stem path.suffix e.1
  let old := old.mergeSort fun a b => b.1 ≤ a.1
  removeAll home files (old.drop keptFiles)

/-- Moves the log in a directory aside under its new name, unless no file can have that or something
that cannot be replaced has it, and removes the oldest files put aside. -/
def putAside (settings : Settings) (home : FilePlace) (path : Path) (entry : FileEntry)
    (files : FileStore) : FileStore :=
  let name := asideName path settings.now.stamp
  let aside := FileStore.placeIn home name
  if !takesName path name then files
  else if (files.entry? aside).any fun there => entry.isDirectory || there.isDirectory then files
  else prune path home (files.move (FileStore.placeIn home path.name) aside)

/-- The size of what stands at a place. -/
def sizeOf : FileEntry → Int
  | .file content => content.length
  | .closedFile content => content.length
  | .directory => directorySize
  | .closedDirectory => directorySize
  | .device => 0

/-- Puts the log aside if it is larger than the limit. -/
def rotate (settings : Settings) (path : Path) (files : FileStore) : FileStore :=
  match files.homeOf? path with
  | none => files
  | some home =>
    match files.entry? (FileStore.placeIn home path.name) with
    | none => files
    | some entry =>
      if sizeOf entry > settings.sizeLimit then putAside settings home path entry files else files

/-- Appends a line to the log file; the directories on the way to it are made. A directory at its
path, a file on the way to it, a name too long or what belongs to another user prevents it. The file is
opened for a line that cannot be encoded, but nothing is appended. -/
def append (settings : Settings) (path : Path) (line : Points) (files : FileStore) : FileStore :=
  match files.lookup path with
  | .error _ => files
  | .ok there =>
    if there.any (·.isDirectory) then files
    else
      match files.makeDirectory path.parent with
      | (.error _, files) => files
      | (.ok home, files) =>
        let files := rotate settings path files
        match files.step home path.name with
        | .error _ => files
        | .ok place =>
          let added := (line.legible?.map fun line => Text.Utf8.bytes (line ++ "\n")).getD []
          match files.entry? place with
          | none => files.putAt place (.file added)
          | some (.file old) => files.putAt place (.file (old ++ added))
          | some _ => files

/-- A log file with its settings, its files and the trace of the thread that writes. -/
structure Journal where
  settings : Settings
  path : Path
  files : FileStore
  tracer : Tracer

namespace Journal

/-- The journal after an event, of which a line is kept or none. The clock shows `later` when the line
is written. -/
def keep (j : Journal) (later : Moment) (line : Option Points) (tracer : Tracer) : Journal :=
  match line with
  | none => { j with tracer }
  | some line =>
    { j with tracer, files := append { j.settings with now := later } j.path line j.files }

/-- Writes an event that is held as an object. -/
def recordObject (j : Journal) (later : Moment) (objects : Objects) (event : Nat) : Journal × Objects :=
  let (line, tracer, objects) := lineOfObject j.settings j.tracer objects event
  (j.keep later line tracer, objects)

/-- Writes an event that nobody else holds. -/
def record (j : Journal) (fields : Fields) : Journal :=
  (j.recordObject j.settings.now [fields] 0).1

/-- Puts the log file aside if it is too large. -/
def rotated (j : Journal) : Journal :=
  { j with files := rotate j.settings j.path j.files }

end Journal
end ScriptTree.Log
