import ScriptTree.Docs.Entry
import ScriptTree.File.Document
import ScriptTree.Json.Graph
import ScriptTree.Json.Reader
import ScriptTree.Text.Case

/-!
The documentation of all types, by name, and loading it from a file. Loading replaces the whole
catalog; a file that is missing leaves it empty, and a file that cannot be decoded leaves it as it
was.
-/

namespace ScriptTree.Docs

/-- The documentation of types; no two entries have one name. -/
structure Catalog where
  entries : List Entry
  deriving DecidableEq, Repr

/-- Why a YAML text has no value: the parser refuses it, or breaks off at one of its values with an error
of another kind. -/
inductive YamlFault where
  | refused (message : String)
  | broken (kind message : String)
  deriving DecidableEq, Repr

/-- Why a file is not loaded. -/
inductive LoadFault where
  | unreadable (fault : DocumentFault)
  | badJson (message : String)
  | badYaml (message : String)
  | notList (typeName : String)
  /-- A JSON number with too many digits to read. -/
  | integerTooLong (digits : Nat)
  /-- A value at which the parser of YAML breaks off. -/
  | badValue (kind message : String)
  /-- A number with too many digits to write. -/
  | unwritable
  /-- The way to the file is barred. -/
  | barred (fault : FileFault)
  deriving Repr

namespace LoadFault

/-- Whether the fault is the file's; the others are faults of a single value in it or of its name. -/
def isOfFile : LoadFault → Bool
  | .integerTooLong _ => false
  | .badValue _ _ => false
  | .unwritable => false
  | .barred _ => false
  | _ => true

/-- The wording of a fault in the file at a path. -/
def message (p : Path) : LoadFault → String
  | .unreadable fault => s!"Failed to load AST docs from {p.text}: {fault.message p}"
  | .badJson why => s!"Failed to load AST docs from {p.text}: {why}"
  | .badYaml why => s!"Failed to load AST docs from {p.text}: {why}"
  | .notList typeName => s!"AST docs in {p.text} must be a list of entries, got {typeName}"
  | .integerTooLong digits => Integer.tooLongMessage digits
  | .badValue _ why => why
  | .unwritable => unwritableMessage
  | .barred fault => fault.message (Text.quoted p.text)

end LoadFault

namespace Catalog

/-- No documentation. -/
def empty : Catalog := ⟨[]⟩

/-- Puts an entry at the place of one with its name, or at the end. -/
def putEntry (e : Entry) : List Entry → List Entry
  | [] => [e]
  | f :: fs => if f.name = e.name then e :: fs else f :: putEntry e fs

/-- Adds an entry; it replaces one with its name. -/
def put (c : Catalog) (e : Entry) : Catalog :=
  ⟨putEntry e c.entries⟩

/-- The number of entries. -/
def size (c : Catalog) : Nat :=
  c.entries.length

/-- The documentation of a type. -/
def get? (c : Catalog) (name : Points) : Option Entry :=
  c.entries.find? (·.name == name)

/-- Whether a type is documented. -/
def contains (c : Catalog) (name : Points) : Bool :=
  (c.get? name).isSome

/-- A text that is not empty. -/
def nonEmpty? (s : Points) : Option Points :=
  if s.isEmpty then none else some s

/-- What a type is. -/
def summary? (c : Catalog) (name : Points) : Option Points :=
  (c.get? name).bind fun e => nonEmpty? e.summary

/-- The name of a type that is documented. -/
def displayName? (c : Catalog) (name : Points) : Option Points :=
  (c.get? name).map (·.name)

/-- The documentation of a property of a type. -/
def property? (c : Catalog) (name property : Points) : Option Property :=
  (c.get? name).bind (·.property? property)

/-- What a property is. -/
def propertySummary? (c : Catalog) (name property : Points) : Option Points :=
  (c.property? name property).bind fun p => nonEmpty? p.summary

/-- The type of a property. -/
def propertyType? (c : Catalog) (name property : Points) : Option Points :=
  (c.property? name property).bind fun p => nonEmpty? p.typeName

/-- Whether a file is written in YAML; every other one is written in JSON. -/
def isYaml (p : Path) : Bool :=
  [".yaml", ".yml"].contains (Text.lower p.suffix)

/-- The value of a documentation file with the given text, where `yaml` reads YAML. -/
def decode (yaml : String → Except YamlFault ValueGraph) (p : Path) (text : String) :
    Except LoadFault ValueGraph :=
  if isYaml p then
    match yaml text with
    | .ok g => .ok g
    | .error (.refused why) => .error (.badYaml why)
    | .error (.broken kind why) => .error (.badValue kind why)
  else
    match Json.read text with
    | .ok v => .ok v.toGraph
    | .error (.integerTooLong digits) => .error (.integerTooLong digits)
    | .error e => .error (.badJson (e.message text.toList))

/-- Adds the entries among some parts. At one that cannot be written it stops, and what was added
before stays. -/
def addAll (c : Catalog) (g : ValueGraph) : List Nat → Except LoadFault Unit × Catalog
  | [] => (.ok (), c)
  | place :: rest =>
    match namedFields? g place with
    | none => c.addAll g rest
    | some fields =>
      match Entry.ofFields? g fields with
      | some e => (c.put e).addAll g rest
      | none => (.error .unwritable, c)

/-- The value in the file at a path, which `value` gives for its text, and the places of the parts that
it lists. -/
def readListBy (value : Path → String → Except LoadFault ValueGraph) (files : FileStore) (p : Path) :
    Except LoadFault (ValueGraph × List Nat) :=
  match files.readText p with
  | .error fault => .error (.unreadable fault)
  | .ok text =>
    match value p text with
    | .error fault => .error fault
    | .ok g =>
      match g.part g.root with
      | .list items => .ok (g, items)
      | _ => .error (.notList (g.typeName g.root))

/-- Replaces the catalog by the content of a file, whose text `value` decodes. -/
def loadBy (value : Path → String → Except LoadFault ValueGraph) (c : Catalog) (files : FileStore)
    (p : Path) : Except LoadFault Unit × Catalog :=
  match files.lookup p with
  | .error fault => (.error (.barred fault), c)
  | .ok there =>
    if there.any (·.isFile) then
      match readListBy value files p with
      | .error fault => (.error fault, c)
      | .ok (g, places) => empty.addAll g places
    else (.ok (), empty)

/-- Replaces the catalog by the content of a file, where `yaml` reads YAML. -/
def load (yaml : String → Except YamlFault ValueGraph) (c : Catalog) (files : FileStore) (p : Path) :
    Except LoadFault Unit × Catalog :=
  c.loadBy (decode yaml) files p

end Catalog
end ScriptTree.Docs
