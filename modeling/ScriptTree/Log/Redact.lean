import ScriptTree.Digest.Sha256
import ScriptTree.Log.Settings
import ScriptTree.Text.Cut
import ScriptTree.Text.Utf8

/-!
Sensitive texts in the log: replaced by their length and the start of their digest, or cut.
-/

namespace ScriptTree.Log

/-- What stands for a sensitive text: its length in characters and twelve digits of its digest. -/
def placeholder (s : String) : String :=
  let digest := String.ofList ((Digest.Sha256.hex (Text.Utf8.bytes s)).toList.take 12)
  s!"[REDACTED len={s.length} sha256={digest}]"

/-- A text cut to `limit` characters with a note of its length; where the note has no room, the
text is only cut. -/
def shortened (s : String) (limit : Int) : String :=
  let cs := s.toList
  let note := s!"... [truncated, len={cs.length}]".toList
  if (cs.length : Int) ≤ limit then s
  else if limit ≤ note.length then String.ofList (Text.takeTo cs limit)
  else String.ofList (cs.take (limit - note.length).toNat ++ note)

/-- A text as the log may show it. -/
def redacted (mode : Mode) (s : String) (limit : Int) : String :=
  if s.isEmpty then s
  else if mode.redacts then placeholder s
  else shortened s limit

end ScriptTree.Log
