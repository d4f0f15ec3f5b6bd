import ScriptTree.Interpreter.Profile

/-!
Answers that are still to come. A future is settled once: by its answer, by a failure, or by its
owner giving it up; what comes after that is dropped.
-/

namespace ScriptTree.Interpreter

/-- The state of an answer. -/
inductive Outcome where
  | pending
  | cancelled
  | done (value : List Char)
  | failed (error : SessionError)
  deriving DecidableEq, Repr

/-- The state after an attempt to settle: only a pending answer changes. -/
def Outcome.settle (old new : Outcome) : Outcome :=
  match old with
  | .pending => new
  | _ => old

/-- All answers asked for, in the order of asking; an answer is named by its place. -/
structure Futures where
  outcomes : List Outcome
  deriving DecidableEq, Repr

namespace Futures

/-- No answers. -/
def empty : Futures := ⟨[]⟩

/-- The state of an answer. -/
def get (fs : Futures) (i : Nat) : Outcome :=
  fs.outcomes.getD i .pending

/-- Asks for a new answer, in the given state, and names it. -/
def add (fs : Futures) (o : Outcome) : Futures × Nat :=
  (⟨fs.outcomes ++ [o]⟩, fs.outcomes.length)

/-- Settles an answer. -/
def settle (fs : Futures) (i : Nat) (o : Outcome) : Futures :=
  ⟨fs.outcomes.modify i (·.settle o)⟩

/-- Gives an answer up. An answer that has come is not given up. -/
def cancel (fs : Futures) (i : Nat) : Futures × Bool :=
  match fs.get i with
  | .pending => (fs.settle i .cancelled, true)
  | .cancelled => (fs, true)
  | _ => (fs, false)

/-- Settles all of some answers alike. -/
def settleAll (fs : Futures) (is : List Nat) (o : Outcome) : Futures :=
  is.foldl (fun fs i => fs.settle i o) fs

end Futures
end ScriptTree.Interpreter
