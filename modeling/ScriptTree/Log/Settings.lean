import ScriptTree.Number.Binary64
import ScriptTree.Time.Moment

/-!
How the event log is kept: whether at all, whether sensitive texts are replaced, what share of the
debugging events is kept, how large the file may grow, and the clock.
-/

namespace ScriptTree.Log

/-- Whether events are kept, and whether their sensitive texts are. -/
inductive Mode where
  | off
  | redacted
  | full
  deriving DecidableEq, Repr

/-- Whether sensitive texts are replaced; only the full log keeps them. -/
def Mode.redacts : Mode → Bool
  | .full => false
  | _ => true

/-- The settings of the log. -/
structure Settings where
  mode : Mode
  /-- The share of debugging events that is kept. -/
  rate : Binary64
  /-- A number from zero to below one, drawn for each debugging event. -/
  draw : Binary64
  /-- The size in bytes above which the file is put aside. -/
  sizeLimit : Int
  now : Moment
  deriving Repr

/-- Whether a debugging event is kept: always at a rate of one or more, else if the number drawn
is below the rate. -/
def Settings.keepsSample (s : Settings) : Bool :=
  let one := Binary64.ofInt 1
  if Binary64.lt one s.rate || Binary64.same one s.rate then true else Binary64.lt s.draw s.rate

/-- The size at which a log is put aside unless another is set: ten mebibytes. -/
def standardSizeLimit : Int := 10 * 1024 * 1024

end ScriptTree.Log
