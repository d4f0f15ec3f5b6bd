import ScriptTree.Log.Event

/-!
Events as objects. Who notes an event holds it as an object, which others may hold, too, and which may
be noted again. What is noted is a copy: it is the copy that gets the time, the trace, the operation
and the level, and another one that has its sensitive texts replaced.
-/

namespace ScriptTree.Log

/-- The fields of some objects, each of which is known by its number. -/
abbrev Objects := List Fields

namespace Objects

/-- The fields of an object. -/
def get (objects : Objects) (i : Nat) : Fields :=
  objects.getD i []

/-- Makes an object with the given fields, and gives its number. -/
def make (objects : Objects) (fields : Fields) : Nat × Objects :=
  (objects.length, objects ++ [fields])

/-- Gives an object other fields. -/
def assign (objects : Objects) (i : Nat) (fields : Fields) : Objects :=
  objects.set i fields

end Objects

/-- The line of an event that is held as an object, if the event is kept and has one, the tracer after it,
and the objects after it. -/
def lineOfObject (settings : Settings) (tracer : Tracer) (objects : Objects) (event : Nat) :
    Option Points × Tracer × Objects :=
  match settings.mode with
  | .off => (none, tracer, objects)
  | mode =>
    let (own, objects) := objects.make (objects.get event)
    let (fields, tracer) := complete settings.now tracer (objects.get own)
    let objects := objects.assign own fields
    if isKept settings (objects.get own) then
      match sanitize? mode (objects.get own) with
      | none => (none, tracer, objects)
      | some sanitized =>
        let (shown, objects) := if mode.redacts then objects.make sanitized else (own, objects)
        (some (Json.write (.object (objects.get shown))), tracer, objects)
    else (none, tracer, objects)

end ScriptTree.Log
