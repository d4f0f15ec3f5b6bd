import ScriptTree.Number.Integer
import ScriptTree.Number.Shortest

/-!
How long an answer is waited for at most. The machine counts the time in nanoseconds, in a word of 64
bits with a sign, and a wait that does not fit is refused.
-/

namespace ScriptTree.Interpreter

/-- A limit of time in seconds, a whole number or one with a point. -/
inductive TimeLimit where
  | whole (seconds : Int)
  | real (seconds : Binary64)
  deriving DecidableEq, Repr

namespace TimeLimit

/-- The limit as it is shown. -/
def text : TimeLimit → String
  | .whole i => Integer.text i
  | .real x => x.text

/-- The nanoseconds of a second. -/
def nanoseconds : Nat := 1000000000

/-- The number of nanoseconds from which on a wait does not fit. -/
def nanosecondLimit : Nat := 9223372036854775808

/-- Whether a wait does not fit. One without length, or without number, is no wait at all. -/
def isOverlong : TimeLimit → Bool
  | .whole i => nanosecondLimit ≤ i * nanoseconds
  | .real (.infinity negative) => !negative
  | .real x =>
    match x.ratio? with
    | some (p, q) => nanosecondLimit * q ≤ p * nanoseconds
    | none => false

/-- The wording for a wait that does not fit. -/
def overlongMessage : TimeLimit → String
  | .whole _ => "timestamp too large to convert to C _PyTime_t"
  | .real _ => "timestamp out of range for platform time_t"

end TimeLimit
end ScriptTree.Interpreter
