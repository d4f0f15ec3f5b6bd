import ScriptTree.Number.Real
import ScriptTree.Text.Base64
import ScriptTree.Text.Case
import ScriptTree.Value.Scalar
import ScriptTree.Yaml.Plain

/-!
The values that the texts of scalars give. A tag may promise a type for any text, so reading accepts
more than the notations by which a plain scalar shows its type.
-/

namespace ScriptTree.Yaml

/-! ## Whole numbers -/

/-- The fault of a text that is no whole number. -/
def notInt (base : Nat) (cs : List Char) : Fault :=
  .badValue (.notInteger base (String.ofList cs))

/-- A decimal whole number. -/
def readDecimal (cs : List Char) : Except Fault Int :=
  match Integer.read (String.ofList cs) with
  | .ok n => .ok n
  | .error .malformed => .error (notInt 10 cs)
  | .error (.tooLong digits) => .error (.badValue (.integerTooLong digits))

/-- The value of a digit of any script or of a hexadecimal letter. -/
def figureValue? (c : Char) : Option Nat :=
  match Text.digitValue? c with
  | some n => some n
  | none => hexValue? c

/-- The letter that may stand after a zero to tell a base. -/
def baseLetter (base : Nat) : Char :=
  if base = 2 then 'b' else if base = 8 then 'o' else 'x'

/-- A text without a zero and a letter that tell the base. -/
def withoutBase (base : Nat) : List Char → List Char
  | '0' :: c :: rest => if c.toLower = baseLetter base then rest else '0' :: c :: rest
  | cs => cs

/-- A whole number in a base that is a power of two. White space, a sign and the letter of the base
may stand before it. -/
def readBase (base : Nat) (cs : List Char) : Except Fault Int :=
  let (negative, body) := Integer.splitSign (Text.trimNumber cs)
  let digits := (withoutBase base body).mapM fun c => (figureValue? c).filter (· < base)
  match digits with
  | some (d :: ds) =>
    let n := (d :: ds).foldl (fun n d => base * n + d) 0
    .ok (if negative then -(n : Int) else n)
  | _ => .error (notInt base cs)

/-- A whole number in base sixty. -/
def readBaseSixty (cs : List Char) : Except Fault Int := do
  let parts ← (piecesAt ':' cs).mapM readDecimal
  pure (parts.foldl (fun n part => 60 * n + part) 0)

/-- A whole number; underscores do not count. -/
def readInt (text : String) : Except Fault Int :=
  let (negative, cs) := Integer.splitSign (text.toList.filter (· != '_'))
  let found : Except Fault Int :=
    match cs with
    | [] => .error (.badValue .emptyNumber)
    | ['0'] => .ok 0
    | '0' :: 'b' :: rest => readBase 2 rest
    | '0' :: 'x' :: rest => readBase 16 rest
    | '0' :: _ => readBase 8 cs
    | cs => if cs.contains ':' then readBaseSixty cs else readDecimal cs
  found.map fun n => if negative then -n else n

/-! ## Numbers with a point -/

/-- A text in small letters without underscores: whether it has a minus, and what follows it. -/
def unsignedReal (text : String) : Bool × List Char :=
  let cs := text.toList.filter (· != '_')
  Integer.splitSign (Text.lower (String.ofList cs)).toList

/-- Whether a text is the word for what is not a number. -/
def isNotNumber (text : String) : Bool :=
  (unsignedReal text).2 == ".nan".toList

/-- A number with a point in decimal notation. -/
def readPointed (cs : List Char) : Except Fault Binary64 :=
  match Binary64.read? (String.ofList cs) with
  | some x => .ok x
  | none => .error (.badValue (.notReal (String.ofList cs)))

/-- The sum of numbers, of which each counts sixty times as much as the one before it, the first one
`unit` times. Every product and every sum is rounded. -/
def sumBySixty (sum : Binary64) (unit : Nat) : List Binary64 → Except Fault Binary64
  | [] => .ok sum
  | x :: xs =>
    match Binary64.ofInt unit with
    | .infinity _ => .error (.badValue .tooManyPlaces)
    | place => sumBySixty (Binary64.add sum (Binary64.mul x place)) (60 * unit) xs

/-- A number with a point; underscores and the case of letters do not count. -/
def readReal (text : String) : Except Fault Binary64 :=
  let (negative, cs) := unsignedReal text
  let found : Except Fault Binary64 :=
    if text.toList.all (· == '_') then .error (.badValue .emptyNumber)
    else if cs == ".inf".toList then .ok (.infinity false)
    else if cs == ".nan".toList then .ok .nan
    else if cs.contains ':' then do
      let parts ← (piecesAt ':' cs).mapM readPointed
      sumBySixty Binary64.zero 1 parts.reverse
    else readPointed cs
  found.map fun x => if negative then x.negate else x

/-! ## Other scalars -/

/-- A word for yes or no. -/
def readBool (text : String) : Except Fault Bool :=
  let word := Text.lower text
  if yesWords.contains word then .ok true
  else if noWords.contains word then .ok false
  else .error (.badValue (.notBool word))

/-- Why the parts of a date are none; the zone comes first. -/
def DateParts.fault? (p : DateParts) : Option DateFault :=
  match p.time with
  | none => dateFault? p.year p.month p.day
  | some (hour, minute, second, _) =>
    (zoneFault? p.zone).or ((dateFault? p.year p.month p.day).or (timeFault? hour minute second))

/-- A date, with or without time of day. -/
def readMoment (text : String) : Except Fault Scalar :=
  match dateParts? (withoutBreak text.toList) with
  | none => .error (.badValue .notDate)
  | some p =>
    match p.fault?, p.time with
    | some why, _ => .error (.badValue (.impossibleDate why))
    | none, none => .ok (.date p.year p.month p.day)
    | none, some (hour, minute, second, micro) =>
      .ok (.moment ⟨p.year, p.month, p.day, hour, minute, second, micro, p.zone⟩)

/-- Bytes written in letters of ASCII. -/
def readBytes (text : String) : Except Fault Scalar :=
  let cs := text.toList
  if cs.any fun c => 0x80 ≤ c.toNat then .error .wrongKind
  else
    match Text.Base64.decodeLoose? cs with
    | some bytes => .ok (.bytes bytes)
    | none => .error .wrongKind

end ScriptTree.Yaml
