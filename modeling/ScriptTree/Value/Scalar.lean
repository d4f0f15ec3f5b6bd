import ScriptTree.Number.Integer
import ScriptTree.Number.Shortest
import ScriptTree.Text.Quoted
import ScriptTree.Time.Moment

/-!
The values without parts that a document can hold, whatever its format, their text, and when two
of them are the same. A text stands for itself at the outside and is quoted inside another value.
-/

namespace ScriptTree

/-- Whether a number has more digits than are ever written. -/
def Integer.isTooLong (i : Int) : Bool :=
  Nat.pow 10 digitLimit ≤ i.natAbs

/-- A value without parts. -/
inductive Scalar where
  | null
  | bool (b : Bool)
  | int (i : Int)
  | real (x : Binary64)
  | text (s : Points)
  | bytes (bs : List UInt8)
  | date (year month day : Nat)
  | moment (m : Moment)
  deriving DecidableEq, Repr, Inhabited

namespace Scalar

/-- The name of a value's type. -/
def typeName : Scalar → String
  | .null => "NoneType"
  | .bool _ => "bool"
  | .int _ => "int"
  | .real _ => "float"
  | .text _ => "str"
  | .bytes _ => "bytes"
  | .date _ _ _ => "date"
  | .moment _ => "datetime"

/-- Values that count as absent: nothing, false, zero, and all that is empty. -/
def isBlank : Scalar → Bool
  | .null => true
  | .bool b => !b
  | .int i => i == 0
  | .real x => x.isZero
  | .text s => s.isEmpty
  | .bytes bs => bs.isEmpty
  | _ => false

/-! ## Text -/

/-- The argument that tells a moment's zone. -/
def zoneArgument : Zone → String
  | .unknown => ""
  | .universal => ", tzinfo=datetime.timezone.utc"
  | .offset minutes => s!", tzinfo=datetime.timezone({spanText minutes})"

/-- A moment inside another value: its parts as arguments, the seconds and their fraction only if
they are not zero. -/
def momentQuoted (m : Moment) : String :=
  let tail :=
    if m.micro ≠ 0 then s!", {m.second}, {m.micro}"
    else if m.second ≠ 0 then s!", {m.second}"
    else ""
  s!"datetime.datetime({m.year}, {m.month}, {m.day}, {m.hour}, {m.minute}{tail}" ++
    zoneArgument m.zone ++ ")"

/-- The text of a value inside another. -/
def quoted : Scalar → String
  | .null => "None"
  | .bool b => if b then "True" else "False"
  | .int i => Integer.text i
  | .real x => x.text
  | .text s => Text.quoted s
  | .bytes bs => Text.quotedBytes bs
  | .date y m d => s!"datetime.date({y}, {m}, {d})"
  | .moment m => momentQuoted m

/-- The text of a value on its own. -/
def display : Scalar → Points
  | .text s => s
  | .date y m d => Moment.dateText y m d
  | .moment m => m.text " "
  | v => quoted v

/-- Whether a value is written at all; only a number with too many digits is not. -/
def isWritable : Scalar → Bool
  | .int i => !Integer.isTooLong i
  | _ => true

/-! ## Sameness -/

/-- A value as a number: yes counts as one and no as zero. -/
def numberOf? : Scalar → Option (Int ⊕ Binary64)
  | .bool b => some (.inl (if b then 1 else 0))
  | .int i => some (.inl i)
  | .real x => some (.inr x)
  | _ => none

/-- Whether two numbers are the same, one of which may have a point. -/
def sameNumber : Int ⊕ Binary64 → Int ⊕ Binary64 → Bool
  | .inl i, .inl j => i == j
  | .inr x, .inr y => Binary64.same x y
  | .inl i, .inr x => x.truncate? == some i && Binary64.same x (Binary64.ofInt i)
  | .inr x, .inl i => x.truncate? == some i && Binary64.same x (Binary64.ofInt i)

/-- Whether two values are the same. Numbers of different types may be, and `nan` never is. -/
def same (a b : Scalar) : Bool :=
  match numberOf? a, numberOf? b with
  | some x, some y => sameNumber x y
  | none, none =>
    match a, b with
    | .moment s, .moment t => Moment.same s t
    | a, b => a == b
  | _, _ => false

end Scalar
end ScriptTree
