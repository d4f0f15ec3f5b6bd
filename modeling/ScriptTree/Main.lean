import ScriptTree.CommandLine.Run
import ScriptTree.Docs.Yaml

/-!
The program on a command line. The script and the documentation are read from their files, and the
output of the PowerShell parser is read from standard input.
-/

namespace ScriptTree.CommandLine

/-- The variables that the program reads. -/
def variableNames : List String :=
  ["COMP_CWORD", "COMP_WORDS", "HOME", "POWERSHELL_AST_FLAVOR", "SHOWAST_AST_DOCS",
   "SHOWAST_INVOKE_TIMEOUT", "SHOWAST_LOG_LEVEL", "SHOWAST_POWERSHELL_FLAVOR",
   "SHOWAST_POWERSHELL_PATH", Completion.variableName]

/-- The environment of this process. -/
def readEnvironment : IO Environment := do
  let assigned ← variableNames.filterMapM fun name => do
    pure ((← IO.getEnv name).map (name, ·))
  pure { assigned, home := "/", homes := [] }

/-- What stands at a path. -/
def readEntry (path : String) : IO (Option FileEntry) := do
  try
    pure (some (.file (← IO.FS.readBinFile path).toList))
  catch
    | .inappropriateType .. => pure (some .directory)
    | _ => pure none

/-- Adds what stands at the path that a word names. -/
def addFile (files : FileStore) (word : String) : IO FileStore := do
  let path := Path.ofText word
  match ← readEntry path.text with
  | none => pure files
  | some e =>
    pure (files.write path e)

/-- The output of the parser, if a command needs it. -/
def readOutput (files : FileStore) (words : List String) : IO String := do
  match Request.ofWords files words with
  | .ok (.run _) => (← IO.getStdin).readToEnd
  | _ => pure ""

/-- Parser services that answer every script with one output. -/
def answering (output : String) : Parsers Unit where
  opening _ w := w
  serve _ w := (.ok output, w)
  closing w := w
  yaml := Yaml.decode

end ScriptTree.CommandLine

open ScriptTree CommandLine

/-- Runs the program. -/
def main (words : List String) : IO UInt32 := do
  let environment ← readEnvironment
  let named := words ++ (environment.get? "SHOWAST_AST_DOCS").toList
  let files ← named.foldlM addFile FileStore.empty
  let output ← readOutput files words
  let home := (← IO.currentDir).toString
  let (ending, _) := run ⟨environment, files, home⟩ (answering output) words ()
  IO.print ending.output
  IO.eprint ending.errorOutput
  pure (UInt32.ofNat ending.exitCode)
