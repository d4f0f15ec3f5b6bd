import ScriptTree.Config.Environment
import ScriptTree.Log.Settings
import ScriptTree.Number.Real

/-!
What the environment says about the event log and about the selection after an analysis.
-/

namespace ScriptTree

/-- Whether an analysis selects the first root, how the log is kept, and which share of its
debugging events. -/
structure Preference where
  selectsRoot : Bool
  mode : Log.Mode
  rate : Binary64
  deriving Repr

namespace Preference

/-- The words for the log with sensitive texts replaced. -/
def redactedWords : List String := ["safe", "1", "true", "yes"]

/-- The way of keeping the log that a word names; an unknown word turns it off. -/
def modeOf (word : String) : Log.Mode :=
  let word := Text.lower (Text.strip word)
  if word = "full" then .full
  else if redactedWords.contains word then .redacted
  else .off

/-- The share of debugging events that a text gives, all of them if it gives none. -/
def rateOf (given : String) : Binary64 :=
  (Binary64.read? given).getD (Binary64.ofInt 1)

/-- What the environment says. -/
def ofEnvironment (e : Environment) : Preference where
  selectsRoot := e.getBool "SHOWAST_SELECT_ROOT" true
  mode := modeOf (e.getD "SHOWAST_LOGGING" "off")
  rate := rateOf (e.getD "SHOWAST_LOG_SAMPLE_RATE" "1.0")

end Preference
end ScriptTree
