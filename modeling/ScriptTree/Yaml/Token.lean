import ScriptTree.Number.Integer
import ScriptTree.Text.Quoted
import ScriptTree.Time.Moment

/-!
The tokens of a YAML text, and what can be wrong with one. Structure that the text gives by
indentation has tokens of its own.
-/

namespace ScriptTree.Yaml

/-- The tokens. -/
inductive Token where
  | version (major minor : Nat)
  | tagHandle (handle tags : String)
  | otherDirective
  | documentStart
  | documentEnd
  | textEnd
  | blockSequence
  | blockMapping
  | blockEnd
  | flowSequence
  | flowMapping
  | flowSequenceEnd
  | flowMappingEnd
  | key
  | value
  | blockEntry
  | flowEntry
  | alias (name : String)
  | anchor (name : String)
  | tag (handle : Option String) (suffix : String)
  | scalar (text : String) (plain : Bool)
  deriving DecidableEq, Repr, Inhabited

/-- Why a text gives no value of the type that its tag promises. -/
inductive ValueFault where
  | emptyNumber
  | notInteger (base : Nat) (text : String)
  | integerTooLong (digits : Nat)
  | notReal (text : String)
  /-- So many places in base sixty that the first one is beyond all numbers with a point. -/
  | tooManyPlaces
  | notBool (word : String)
  | notDate
  /-- A mapping that stands for a date. -/
  | dateInMapping
  | impossibleDate (why : DateFault)
  /-- An escape beyond the last character. -/
  | notCharacter
  /-- An escape with a number of more than 31 bits. -/
  | hugeCharacter
  deriving DecidableEq, Repr

namespace ValueFault

/-- The wording of a fault. -/
def message : ValueFault → String
  | .emptyNumber => "string index out of range"
  | .notInteger base text => Integer.malformedMessage base text
  | .integerTooLong digits => Integer.tooLongMessage digits
  | .notReal text => s!"could not convert string to float: {Text.quoted text}"
  | .tooManyPlaces => "int too large to convert to float"
  | .notBool word => Text.quoted word
  | .notDate => "'NoneType' object has no attribute 'groupdict'"
  | .dateInMapping => "expected string or bytes-like object, got 'list'"
  | .impossibleDate why => why.message
  | .notCharacter => "chr() arg not in range(0x110000)"
  | .hugeCharacter => "Python int too large to convert to C int"

end ValueFault

/-- What is wrong with a YAML text. -/
inductive Fault where
  /-- A character that no YAML text holds. -/
  | forbiddenCharacter
  /-- A character that starts no token. -/
  | strangeCharacter
  /-- A key on one line without a colon after it. -/
  | keyWithoutValue
  /-- An entry, key or value where none may stand. -/
  | misplaced
  | badDirective
  | badName
  | badTag
  | badBlockHeader
  | unclosedQuote
  | badEscape
  /-- A token that the structure has no place for. -/
  | unexpected (token : Token)
  | unknownHandle (handle : String)
  | unknownAlias (name : String)
  | repeatedAnchor (name : String)
  | severalDocuments
  | unknownTag (tag : String)
  /-- A node whose tag belongs to another kind of node. -/
  | wrongKind
  /-- A key that cannot be compared: a list, a set or a record. -/
  | unusableKey
  | badValue (why : ValueFault)
  deriving DecidableEq, Repr

end ScriptTree.Yaml
