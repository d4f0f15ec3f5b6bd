import ScriptTree.Shell.State

/-!
Options among the arguments of a command: letters after a dash, of which some take a value, read one
at a time.
-/

namespace ScriptTree.Shell

/-- What reading one option gives: its letter or a sign that there is none, its value, what is
complained about, and how far the options are read then. -/
structure OptionFound where
  letter : Char
  value : Option Bytes
  complaint : Option String
  place : OptionPlace
  /-- Whether there was an option left. -/
  isFound : Bool

/-- Whether an option is among the known ones, and whether it takes a value: a colon follows it. -/
def optionKind? (known : Bytes) (letter : Char) : Option Bool :=
  match known with
  | [] => none
  | c :: rest =>
    let takesValue := rest.head? = some ':'
    if c = letter then some takesValue
    else if takesValue then optionKind? (rest.drop 1) letter else optionKind? rest letter
termination_by known.length
decreasing_by all_goals simp_all only [List.length_cons, List.length_drop]; omega

/-- The rest of the argument in progress, if it is not read to its end. -/
def OptionPlace.rest (p : OptionPlace) (arguments : List Bytes) : Bytes :=
  match p.inside with
  | some n => if p.next ≤ 1 then [] else ((arguments[p.next - 2]?).getD []).drop n
  | none => []

/-- Reads the next option. Where the known ones begin with a colon nothing is complained about: the
letter is then the value. -/
def readOption (known : Bytes) (arguments : List Bytes) (p : OptionPlace) : OptionFound :=
  let isQuiet := known.head? = some ':'
  let ended (next : Nat) : OptionFound := ⟨'?', none, none, ⟨next, none⟩, false⟩
  let here := p.rest arguments
  let argument := (arguments[p.next - 1]?).getD []
  let (letters, next) := if here.isEmpty then (argument.drop 1, p.next + 1) else (here, p.next)
  if here.isEmpty && (argument.head? != some '-' || argument.length = 1) then ended p.next
  else if here.isEmpty && argument = ['-', '-'] then ended next
  else
    match letters with
    | [] => ended p.next
    | letter :: more =>
      let word := (arguments[next - 2]?).getD []
      let inside := if more.isEmpty then none else some (word.length - more.length)
      match optionKind? known letter with
      | none =>
        if isQuiet then ⟨'?', some [letter], none, ⟨next, inside⟩, true⟩
        else ⟨'?', none, some s!"Illegal option -{letter}", ⟨next, inside⟩, true⟩
      | some false => ⟨letter, some [], none, ⟨next, inside⟩, true⟩
      | some true =>
        if !more.isEmpty then ⟨letter, some more, none, ⟨next, none⟩, true⟩
        else
          match arguments[next - 1]? with
          | some value => ⟨letter, some value, none, ⟨next + 1, none⟩, true⟩
          | none =>
            if isQuiet then ⟨':', some [letter], none, ⟨next, none⟩, true⟩
            else ⟨'?', none, some s!"No arg for -{letter} option", ⟨next, none⟩, true⟩

end ScriptTree.Shell
