import ScriptTree.Docs.Catalog
import ScriptTree.Yaml.Document

/-!
The parser of YAML that the program is run with. Loading itself takes any, and what is known of loading
holds with any: this one stands for the library that reads YAML, so that documentation files can be read
at all. It reads a half of a surrogate pair, which an escape can make, as a null character.
-/

namespace ScriptTree.Yaml

/-- The kind of the error at a value. -/
def ValueFault.kind : ValueFault → String
  | .emptyNumber => "IndexError"
  | .notBool _ => "KeyError"
  | .notDate => "AttributeError"
  | .dateInMapping => "TypeError"
  | .tooManyPlaces => "OverflowError"
  | .hugeCharacter => "OverflowError"
  | _ => "ValueError"

/-- The value of a text, for loading documentation. The wording for a text that is refused is the
library's own and left out. -/
def decode (text : String) : Except Docs.YamlFault ValueGraph :=
  match read text with
  | .ok g => .ok g
  | .error (.badValue why) => .error (.broken why.kind why.message)
  | .error _ => .error (.refused "")

end ScriptTree.Yaml
