import ScriptTree.Text.Blank
import ScriptTree.Text.Terminal

/-!
The text of a response: without terminal escapes, with single line breaks, and without white space
at its ends.
-/

namespace ScriptTree.Interpreter

/-- The text of a response. -/
def normalize (cs : List Char) : List Char :=
  Text.trim (Text.joinLineEnds (Text.dropEscapes cs))

/-- The text of a response. -/
def normalized (s : String) : String :=
  String.ofList (normalize s.toList)

end ScriptTree.Interpreter
