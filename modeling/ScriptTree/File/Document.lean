import ScriptTree.File.Store
import ScriptTree.Text.Quoted
import ScriptTree.Text.Utf8

/-!
Text files: a mark at the start tells the encoding and is dropped, the rest is read strictly, and
all line ends become line feeds.
-/

namespace ScriptTree

/-- The mark at the start of a file. -/
def encodingMark : List UInt8 := [0xef, 0xbb, 0xbf]

/-- The bytes of a file after its mark. A file that ends within the mark is empty. -/
def afterMark (bytes : List UInt8) : List UInt8 :=
  if bytes.isPrefixOf encodingMark then []
  else if encodingMark.isPrefixOf bytes then bytes.drop encodingMark.length
  else bytes

/-- A text with a line feed in place of each return, alone or with a line feed. -/
def unifyLineEnds : List Char → List Char
  | [] => []
  | ['\r'] => ['\n']
  | '\r' :: '\n' :: cs => '\n' :: unifyLineEnds cs
  | '\r' :: c :: cs => '\n' :: unifyLineEnds (c :: cs)
  | c :: cs => c :: unifyLineEnds cs

/-- The text of a file with the given bytes. -/
def readDocument (bytes : List UInt8) : Except Text.Utf8.DecodeError String :=
  (Text.Utf8.decode (afterMark bytes)).map fun cs => String.ofList (unifyLineEnds cs)

/-- Why a text file is not read. -/
inductive DocumentFault where
  | file (fault : FileFault)
  | text (error : Text.Utf8.DecodeError)
  deriving DecidableEq, Repr

/-- The wording of a fault in the file at a path. -/
def DocumentFault.message (p : Path) : DocumentFault → String
  | .file fault => fault.message (Text.quoted p.text)
  | .text error => error.message

/-- The text of the file at a path. -/
def FileStore.readText (files : FileStore) (p : Path) : Except DocumentFault String :=
  match files.read p with
  | .error fault => .error (.file fault)
  | .ok bytes => (readDocument bytes).mapError .text

end ScriptTree
