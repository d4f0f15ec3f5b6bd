import ScriptTree.Number.Binary64
import ScriptTree.Number.Integer

/-!
Reading a number with a fraction or an exponent. Digits of every script count and a single
underscore may stand between two digits; infinity and not-a-number have their words.
-/

namespace ScriptTree.Binary64

/-- Whether a text starts with a digit. -/
def startsWithDigit : List Char → Bool
  | [] => false
  | c :: _ => (Text.digitValue? c).isSome

/-- The digits at the start of a text, and the rest; `after` tells whether a digit came just before.
A single underscore between two digits is passed over. -/
def takeDigitsFrom (after : Bool) : List Char → List Nat × List Char
  | [] => ([], [])
  | c :: cs =>
    match Text.digitValue? c with
    | some d =>
      let (ds, rest) := takeDigitsFrom true cs
      (d :: ds, rest)
    | none =>
      if c = '_' && after && startsWithDigit cs then takeDigitsFrom false cs else ([], c :: cs)

/-- The digits at the start of a text, and the rest. -/
def takeDigits (cs : List Char) : List Nat × List Char :=
  takeDigitsFrom false cs

/-- The exponent at the end of a number. -/
def readExponent? : List Char → Option Int
  | [] => some 0
  | c :: cs =>
    if c = 'e' || c = 'E' then
      let (negative, cs) := Integer.splitSign cs
      match takeDigits cs with
      | ([], _) => none
      | (ds, []) =>
        let n := Integer.ofDigits ds
        some (if negative then -(n : Int) else n)
      | _ => none
    else none

/-- A number without sign. -/
def readUnsigned? (negative : Bool) (cs : List Char) : Option Binary64 :=
  let word := String.ofList (cs.map Char.toLower)
  if word = "inf" || word = "infinity" then some (.infinity negative)
  else if word = "nan" then some .nan
  else
    let (whole, rest) := takeDigits cs
    let (fraction, rest) :=
      match rest with
      | '.' :: rest => takeDigits rest
      | _ => ([], rest)
    if whole.isEmpty && fraction.isEmpty then none
    else
      (readExponent? rest).map fun e =>
        ofDecimal negative (Integer.ofDigits (whole ++ fraction)) (e - fraction.length)

/-- Reads a number; white space around it is dropped. -/
def read? (s : String) : Option Binary64 :=
  let (negative, cs) := Integer.splitSign (Text.trimNumber s.toList)
  readUnsigned? negative cs

end ScriptTree.Binary64
