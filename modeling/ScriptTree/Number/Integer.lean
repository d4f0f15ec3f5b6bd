import ScriptTree.Text.Blank
import ScriptTree.Text.Digit
import ScriptTree.Text.Quoted

/-!
Whole numbers as text. Digits of every script count, a single underscore may stand between two
digits, and there is a limit on the number of digits.
-/

namespace ScriptTree.Integer

/-- The greatest number of digits that is read or written. -/
def digitLimit : Nat := 4300

/-- Why a text is no whole number. -/
inductive Fault where
  | malformed
  | tooLong (digits : Nat)
  deriving DecidableEq, Repr

/-- The wording for a number beyond the limit. -/
def tooLongMessage (digits : Nat) : String :=
  s!"Exceeds the limit ({digitLimit} digits) for integer string conversion: value has {digits}" ++
    " digits; use sys.set_int_max_str_digits() to increase the limit"

/-- The most characters of a text that is no whole number that are shown. -/
def shownLength : Nat := 200

/-- The wording for a text that is no whole number in a base. -/
def malformedMessage (base : Nat) (text : String) : String :=
  let shown := String.ofList ((Text.quotedChars text).take shownLength)
  s!"invalid literal for int() with base {base}: {shown}"

/-- The wording of a fault of a decimal text. -/
def Fault.message (text : String) : Fault → String
  | .malformed => malformedMessage 10 text
  | .tooLong digits => tooLongMessage digits

/-- The values of the digits of a text that holds nothing but digits and single underscores
between them; `after` tells whether a digit came just before. -/
def digitsFrom? (after : Bool) : List Char → Option (List Nat)
  | [] => if after then some [] else none
  | c :: cs =>
    match Text.digitValue? c with
    | some d => (digitsFrom? true cs).map (d :: ·)
    | none => if c = '_' && after then digitsFrom? false cs else none

/-- The number with the given decimal digits. -/
def ofDigits (ds : List Nat) : Nat :=
  ds.foldl (fun n d => 10 * n + d) 0

/-- Splits a sign off. -/
def splitSign : List Char → Bool × List Char
  | '-' :: cs => (true, cs)
  | '+' :: cs => (false, cs)
  | cs => (false, cs)

/-- Reads a whole number; white space around it is dropped. -/
def read (s : String) : Except Fault Int :=
  let (negative, cs) := splitSign (Text.trimNumber s.toList)
  match digitsFrom? false cs with
  | none => .error .malformed
  | some ds =>
    if ds.length > digitLimit then .error (.tooLong ds.length)
    else .ok (if negative then -(ofDigits ds : Int) else ofDigits ds)

/-- The text of a whole number. -/
def text (i : Int) : String :=
  let digits := Nat.toDigits 10 i.natAbs
  String.ofList (if i < 0 then '-' :: digits else digits)

end ScriptTree.Integer
