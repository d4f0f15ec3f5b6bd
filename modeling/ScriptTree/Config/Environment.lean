import ScriptTree.File.Path
import ScriptTree.Text.Blank
import ScriptTree.Text.Case

/-!
The environment variables that the program reads, and the home directories that a path may name.
-/

namespace ScriptTree

/-- The variables that are set, the home directory of the user where no variable tells it, and the
home directories of named users. -/
structure Environment where
  assigned : List (String × String)
  home : String
  homes : List (String × String)
  deriving Repr

/-- The use of a variable under its old name. -/
structure Deprecation where
  old : String
  new : String
  deriving DecidableEq, Repr

/-- The wording of the warning. -/
def Deprecation.message (d : Deprecation) : String :=
  s!"Environment variable '{d.old}' is deprecated, use '{d.new}' instead."

namespace Environment

/-- The value of a variable. -/
def get? (e : Environment) (name : String) : Option String :=
  e.assigned.lookup name

/-- The value of a variable, or another text if it is not set. -/
def getD (e : Environment) (name default : String) : String :=
  (e.get? name).getD default

/-- The value of a variable without the white space around it, empty if it is not set. -/
def trimmed (e : Environment) (name : String) : String :=
  Text.strip (e.getD name "")

/-- The value of a variable that is set and not empty. -/
def nonEmpty? (e : Environment) (name : String) : Option String :=
  (e.get? name).filter (!·.isEmpty)

/-- The words for yes. -/
def trueWords : List String := ["1", "true", "yes", "y", "on"]

/-- The words for no. -/
def falseWords : List String := ["0", "false", "no", "n", "off"]

/-- The value of a variable that says yes or no; every other word counts as `default`. -/
def getBool (e : Environment) (name : String) (default : Bool) : Bool :=
  let word := Text.lower (e.trimmed name)
  if trueWords.contains word then true
  else if falseWords.contains word then false
  else default

/-- The value of a variable that has a new and an old name. The new name wins, empty values do not
count, and the use of the old name is reported. -/
def getRenamed (e : Environment) (new old default : String) : String × List Deprecation :=
  match e.nonEmpty? new with
  | some value => (value, [])
  | none =>
    match e.nonEmpty? old with
    | some value => (value, [⟨old, new⟩])
    | none => (default, [])

/-- The home directory that a first part of a path names: that of the user, or of the user whose
name follows the tilde. -/
def homeOf? (e : Environment) (part : String) : Option String :=
  let name := part.toList.drop 1
  if name.isEmpty then some (e.getD "HOME" e.home)
  else e.homes.lookup (String.ofList name)

/-- A path with the home directory in place of its first part if that part begins with a tilde;
there is none if the directory is not known. -/
def expandHome? (e : Environment) (p : Path) : Option Path :=
  match p.parts with
  | [] => some p
  | part :: parts =>
    if !p.isAbsolute && part.startsWith "~" then
      (e.homeOf? part).bind fun home =>
        if home.startsWith "~" then none
        else
          let top := Path.ofText (if home.isEmpty then "/" else home)
          some { top with parts := top.parts ++ parts }
    else some p

end Environment
end ScriptTree
