import ScriptTree.Text.Find

/-!
Cutting a stream of text into responses, each ended by a sentinel. What follows a sentinel, such as
the line break printed with it, begins the next response.
-/

namespace ScriptTree.Interpreter

open Text (cutAt? cutAt?_length)

/-- All responses that a text holds, and the text after the last of them. -/
def responses (sentinel : List Char) (nonempty : sentinel ≠ []) (text : List Char) :
    List (List Char) × List Char :=
  match h : cutAt? sentinel text with
  | none => ([], text)
  | some (body, rest) =>
    have : rest.length < text.length := cutAt?_length nonempty h
    let (bodies, tail) := responses sentinel nonempty rest
    (body :: bodies, tail)
termination_by text.length

/-- A sentinel and the text that came since the last response was taken. New text is laid aside in
parts, which are joined to the text before them when a response is asked for. -/
structure SentinelBuffer where
  sentinel : List Char
  nonempty : sentinel ≠ []
  joined : List Char
  parts : List (List Char)

namespace SentinelBuffer

/-- The wording of the failure to make a buffer without a sentinel. -/
def emptyMessage : String := "sentinel must be a non-empty string"

/-- A buffer for a sentinel; the empty text is none. -/
def new? (sentinel : String) : Option SentinelBuffer :=
  if h : sentinel.toList ≠ [] then some ⟨sentinel.toList, h, [], []⟩ else none

/-- All the text that is kept. -/
def text (b : SentinelBuffer) : List Char :=
  b.joined ++ b.parts.flatten

/-- Adds text at the end; an empty text is no part. -/
def append (b : SentinelBuffer) (text : List Char) : SentinelBuffer :=
  { b with parts := if text.isEmpty then b.parts else b.parts ++ [text] }

/-- The buffer with other text, all of it joined. -/
def holding (b : SentinelBuffer) (text : List Char) : SentinelBuffer :=
  { b with joined := text, parts := [] }

/-- Joins the parts to the text before them. -/
def join (b : SentinelBuffer) : SentinelBuffer :=
  b.holding b.text

/-- Asks for the first response; there is one only if it is whole. -/
def take (b : SentinelBuffer) : Option (List Char) × SentinelBuffer :=
  match cutAt? b.sentinel b.join.joined with
  | none => (none, b.join)
  | some (body, rest) => (some body, b.holding rest)

/-- Takes all whole responses. -/
def takeAll (b : SentinelBuffer) : List (List Char) × SentinelBuffer :=
  let (bodies, rest) := responses b.sentinel b.nonempty b.join.joined
  (bodies, b.holding rest)

/-- Forgets the text. -/
def clear (b : SentinelBuffer) : SentinelBuffer :=
  b.holding []

@[simp] theorem append_text (b : SentinelBuffer) (text : List Char) : (b.append text).text = b.text ++ text := by
  cases text with
  | nil => exact (List.append_nil _).symm
  | cons c cs => simp [append, SentinelBuffer.text]

@[simp] theorem holding_text (b : SentinelBuffer) (text : List Char) : (b.holding text).text = text :=
  List.append_nil text

@[simp] theorem join_joined (b : SentinelBuffer) : b.join.joined = b.text := rfl

end SentinelBuffer
end ScriptTree.Interpreter
