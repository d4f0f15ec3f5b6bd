/-!
The command language of the POSIX shell: words with their quotes and expansions, redirections, and
commands. A shell works on bytes; a byte is held as the character with its code. The modules on the shell
stand for a shell that the program starts, and nothing else of the program is built on them.
-/

namespace ScriptTree.Shell

/-- The bytes of a text of the shell. -/
abbrev Bytes := List Char

/-- What stands between the name of a parameter and a further word in braces. -/
inductive Adjustment where
  /-- The word, if the parameter is not set. -/
  | orElse
  /-- The word, which also becomes the value, if the parameter is not set. -/
  | orAssign
  /-- An error, if the parameter is not set. -/
  | orFail
  /-- The word, if the parameter is set. -/
  | ifSet
  | dropStart (longest : Bool)
  | dropEnd (longest : Bool)
  /-- None of these, which only counts when it is carried out. -/
  | unknown
  deriving DecidableEq, Repr

/-- How a file is opened for a redirection. -/
inductive OpenMode where
  | read
  | write
  /-- For writing, also over a file that is protected from it. -/
  | overwrite
  | append
  /-- For reading and writing what it holds. -/
  | update
  deriving DecidableEq, Repr

/-- What connects two commands of a list. -/
inductive Connective where
  | andThen
  | orElse
  deriving DecidableEq, Repr

mutual

/-- A part of a word. -/
inductive Part where
  /-- Text without quotes. -/
  | plain (text : Bytes)
  /-- Text that stands for itself. -/
  | quoted (text : Bytes)
  | double (parts : List Part)
  /-- The home of a user, after a tilde. -/
  | home (user : Bytes)
  | parameter (name : Bytes)
  | length (name : Bytes)
  /-- `emptyCounts` tells whether a parameter that is set to nothing counts as not set. -/
  | adjusted (name : Bytes) (how : Adjustment) (emptyCounts : Bool) (word : List Part)
  | arithmetic (parts : List Part)
  | output (script : List Item)

/-- A redirection of a stream. -/
inductive Redirection where
  | file (stream : Nat) (mode : OpenMode) (path : List Part)
  | duplicate (stream : Nat) (source : List Part)
  | text (stream : Nat) (body : List Part)

/-- A command of a list, in the background or not. -/
inductive Item where
  | item (command : Command) (inBackground : Bool)

/-- An arm of a choice: its patterns and its commands. -/
inductive Arm where
  | arm (patterns : List (List Part)) (body : List Item)

/-- A command. -/
inductive Command where
  /-- Assignments and the words of a command, from the line with the given number. -/
  | simple (line : Nat) (assignments : List (Bytes × List Part)) (words : List (List Part))
      (redirections : List Redirection)
  | pipeline (negated : Bool) (commands : List Command)
  | connected (first : Command) (connective : Connective) (second : Command)
  | subshell (body : List Item)
  | group (body : List Item)
  | branch (condition body otherwise : List Item)
  | loop (untilDone : Bool) (condition body : List Item)
  /-- Without words the arguments are gone through. -/
  | each (name : Bytes) (words : Option (List (List Part))) (body : List Item)
  | choice (subject : List Part) (arms : List Arm)
  | define (name : Bytes) (body : Command)
  | redirected (command : Command) (redirections : List Redirection)

end

/-- The bytes of a text. -/
def bytesOf (s : String) : Bytes :=
  s.toList

end ScriptTree.Shell
