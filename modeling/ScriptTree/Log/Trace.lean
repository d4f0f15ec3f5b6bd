import ScriptTree.Time.Moment

/-!
Trace ids tie the events of one activity together. Each thread of activity has its own id and the
name of its operation; new ids come from one supply.
-/

namespace ScriptTree.Log

/-- The id and the operation of a thread of activity; empty where there is none yet. -/
structure Trace where
  id : String
  operation : String
  deriving DecidableEq, Repr

/-- The trace before anything happened. -/
def Trace.empty : Trace := ⟨"", ""⟩

/-- The `n`-th trace id: twelve hexadecimal digits. -/
def traceId (n : Nat) : String :=
  let digits := Nat.toDigits 16 n
  "t-" ++ String.ofList (List.replicate (12 - digits.length) '0' ++ digits)

/-- A trace together with the number of ids handed out so far. -/
structure Tracer where
  issued : Nat
  trace : Trace
  deriving DecidableEq, Repr

namespace Tracer

/-- The tracer before anything happened. -/
def initial : Tracer := ⟨0, Trace.empty⟩

/-- Takes a new id. -/
def renew (t : Tracer) : Tracer :=
  { issued := t.issued + 1, trace := { t.trace with id := traceId (t.issued + 1) } }

/-- Makes sure there is an id. -/
def ensure (t : Tracer) : Tracer :=
  if t.trace.id.isEmpty then t.renew else t

/-- Starts an operation, with a given id or a new one. -/
def start (t : Tracer) (operation : String) (id : Option String) : Tracer :=
  let t := { t with trace := { t.trace with operation } }
  match id with
  | none => t.renew
  | some id => if id.isEmpty then t.renew else { t with trace := { t.trace with id } }

/-- Forgets the id and the operation. -/
def clear (t : Tracer) : Tracer :=
  { t with trace := Trace.empty }

end Tracer
end ScriptTree.Log
