import ScriptTree.File.Path
import ScriptTree.Text.Base64
import ScriptTree.Text.Utf8

/-!
The command that runs the parser script on a source text. The source travels in an alphabet
without quotes or line breaks, so that only the path of the script has to be quoted.
-/

namespace ScriptTree.Analysis

/-- A text with each quote in it written twice. -/
def doubleQuotes (cs : List Char) : List Char :=
  cs.flatMap fun c => if c = '\'' then ['\'', '\''] else [c]

/-- A text between single quotes, each quote in it written twice. -/
def singleQuoted (s : String) : String :=
  String.ofList ('\'' :: doubleQuotes s.toList ++ ['\''])

/-- The source as an argument. -/
def encodeSource (source : String) : String :=
  String.ofList (Text.Base64.encode (Text.Utf8.bytes source))

/-- The command line. -/
def parseCommand (script source : String) : String :=
  s!"& {singleQuoted script} -Base64Content '{encodeSource source}'"

end ScriptTree.Analysis
