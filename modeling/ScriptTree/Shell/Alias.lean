import ScriptTree.Shell.Syntax

/-!
Aliases: names whose text stands for them where a command begins. While the text of an alias is read
its name stands for itself; so that this is known, the text is followed by a mark of its own.
-/

namespace ScriptTree.Shell

/-- A name and the text that stands for it. -/
structure Alias where
  name : Bytes
  text : Bytes
  deriving DecidableEq, Repr

namespace Alias

/-- The first of the characters that mark the ends of texts. No byte is one of them. -/
def firstMark : Nat := 65536

/-- The mark at the end of the text of the alias with a place in a list. -/
def mark (place : Nat) : Char :=
  Char.ofNat (firstMark + place)

/-- Whether a character is a mark. -/
def isMark (c : Char) : Bool :=
  firstMark ≤ c.toNat

/-- A text without the marks in it. -/
def withoutMarks (cs : Bytes) : Bytes :=
  cs.filter (!isMark ·)

/-- What a word at the start of a text, which is followed by `rest`, stands for, unless its alias
is being read. -/
def inserted? (aliases : List Alias) (word rest : Bytes) : Option Bytes :=
  match aliases.findIdx? (·.name == word) with
  | some place =>
    if rest.contains (mark place) then none
    else (aliases[place]?).map fun a => if a.text.isEmpty then rest else a.text ++ mark place :: rest
  | none => none

/-- Whether a mark ends the text of an alias after a blank: then the next word may be an alias
too. -/
def endsInBlank (aliases : List Alias) (c : Char) : Bool :=
  isMark c && (aliases[c.toNat - firstMark]?).any fun a =>
    a.text.getLast? == some ' ' || a.text.getLast? == some '\t'

/-- The number of groups in which aliases are listed. -/
def groups : Nat := 39

/-- The group in which an alias is listed. -/
def group (a : Alias) : Nat :=
  a.name.foldl (fun n c => n + c.toNat) (16 * (a.name.headD '\x00').toNat) % groups

/-- Aliases in the order in which they are listed. -/
def listed (aliases : List Alias) : List Alias :=
  aliases.mergeSort fun a b => a.group ≤ b.group

/-- Puts an alias in the place of one with its name, or after all others. -/
def put (aliases : List Alias) (a : Alias) : List Alias :=
  if aliases.any (·.name == a.name) then aliases.map fun b => if b.name == a.name then a else b
  else aliases ++ [a]

end Alias
end ScriptTree.Shell
