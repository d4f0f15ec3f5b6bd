import ScriptTree.Log.Event

/-!
Several threads of activity that write to one log. Each has its own trace, and all take their ids
from one supply.
-/

namespace ScriptTree.Log

/-- The number of ids handed out, and the trace of each thread that has one. -/
structure Threads (κ : Type) where
  issued : Nat
  traces : List (κ × Trace)

namespace Threads

variable {κ : Type} [BEq κ]

/-- No thread has a trace. -/
def initial : Threads κ := ⟨0, []⟩

/-- The tracer of a thread. -/
def tracer (t : Threads κ) (thread : κ) : Tracer :=
  { issued := t.issued, trace := (t.traces.lookup thread).getD Trace.empty }

/-- The threads after one of them used its tracer. -/
def keep (t : Threads κ) (thread : κ) (tracer : Tracer) : Threads κ :=
  { issued := tracer.issued
    traces := (thread, tracer.trace) :: t.traces.filter (·.1 != thread) }

/-- The line of a thread's event, if the event is kept and has one, and the threads after it. -/
def line (settings : Settings) (t : Threads κ) (thread : κ) (event : Event) :
    Option Points × Threads κ :=
  let (line, tracer) := lineOf settings (t.tracer thread) event.fields
  (line, t.keep thread tracer)

/-- The lines of some events in order, each with the thread that it comes from, as far as they can be
encoded. -/
def lines (settings : Settings) (t : Threads κ) : List (κ × Event) → List String × Threads κ
  | [] => ([], t)
  | (thread, event) :: rest =>
    let (first, t) := t.line settings thread event
    let (others, t) := lines settings t rest
    ((first.bind Points.legible?).toList ++ others, t)

end Threads
end ScriptTree.Log
