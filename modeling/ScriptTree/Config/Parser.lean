import ScriptTree.Config.Environment
import ScriptTree.File.Store
import ScriptTree.Interpreter.Lookup
import ScriptTree.Number.Real
import ScriptTree.Text.Quoted

/-!
The settings of the parser that the environment makes: which PowerShell, where it is, how long an
answer may take, and which documentation is used.
-/

namespace ScriptTree

/-- The settings of the parser. What is not set is found out, or not limited. -/
structure ParserConfig where
  flavor : Interpreter.Flavor
  executable : Option String
  /-- The longest time for an answer, in seconds. -/
  timeout : Option Binary64
  docs : Option Path
  deriving Repr

/-- Why the environment makes no settings. -/
inductive ConfigError where
  | unknownFlavor (given : String)
  | timeoutNotNumber (given : String)
  | timeoutNegative (given : String)
  | unknownHome
  | docsMissing (given : String)
  /-- The way to the documentation file is barred. -/
  | docsBarred (path : Path) (fault : FileFault)
  deriving DecidableEq, Repr

/-- The wording of an error. -/
def ConfigError.message : ConfigError → String
  | .unknownFlavor given =>
    let names := ", ".intercalate (Interpreter.Flavor.all.map Interpreter.Flavor.name)
    s!"SHOWAST_POWERSHELL_FLAVOR must be one of {names}, got: {Text.quoted given}"
  | .timeoutNotNumber given =>
    s!"SHOWAST_INVOKE_TIMEOUT must be a number, got: {Text.quoted given}"
  | .timeoutNegative given =>
    s!"SHOWAST_INVOKE_TIMEOUT must be >= 0, got: {Text.quoted given}"
  | .unknownHome => "Could not determine home directory."
  | .docsMissing given => s!"SHOWAST_AST_DOCS does not exist or is not a file: {given}"
  | .docsBarred path fault => fault.message (Text.quoted path.text)

namespace ParserConfig

/-- The settings where nothing is set. -/
def standard : ParserConfig where
  flavor := .core
  executable := none
  timeout := none
  docs := none

/-- The flavor that a text names. -/
def flavorOf (given : String) : Except ConfigError Interpreter.Flavor :=
  let name := Text.lower (Text.strip given)
  match Interpreter.Flavor.ofName? name with
  | some flavor => .ok flavor
  | none => .error (.unknownFlavor name)

/-- The time limit that a text without white space around it gives; nothing and zero give none. -/
def timeoutOf (given : String) : Except ConfigError (Option Binary64) :=
  if given.isEmpty then .ok none
  else
    match Binary64.read? given with
    | none => .error (.timeoutNotNumber given)
    | some x =>
      if Binary64.lt x Binary64.zero then .error (.timeoutNegative given)
      else .ok (if x.isZero then none else some x)

/-- The documentation file that a text without white space around it names. -/
def docsOf (e : Environment) (files : FileStore) (given : String) :
    Except ConfigError (Option Path) :=
  if given.isEmpty then .ok none
  else
    match e.expandHome? (Path.ofText given) with
    | none => .error .unknownHome
    | some path =>
      match files.lookup path with
      | .error fault => .error (.docsBarred path fault)
      | .ok there => if there.any (·.isFile) then .ok (some path) else .error (.docsMissing given)

/-- The settings that the environment makes, and the old names that it uses. The first wrong
variable is the one reported. -/
def ofEnvironment (e : Environment) (files : FileStore) :
    Except ConfigError ParserConfig × List Deprecation :=
  let (given, warnings) := e.getRenamed "SHOWAST_POWERSHELL_FLAVOR" "POWERSHELL_AST_FLAVOR"
    Interpreter.Flavor.core.name
  let config : Except ConfigError ParserConfig := do
    let flavor ← flavorOf given
    let executable := e.trimmed "SHOWAST_POWERSHELL_PATH"
    let timeout ← timeoutOf (e.trimmed "SHOWAST_INVOKE_TIMEOUT")
    let docs ← docsOf e files (e.trimmed "SHOWAST_AST_DOCS")
    pure
      { flavor
        executable := if executable.isEmpty then none else some executable
        timeout
        docs }
  (config, warnings)

end ParserConfig
end ScriptTree
