import ScriptTree.Number.Integer
import ScriptTree.Shell.Reader

/-!
Whole number arithmetic of the shell, in 64 bits. A name stands for the number that its parameter
holds, and zero if it holds none.
-/

namespace ScriptTree.Shell

/-- An operator between two numbers. -/
inductive Operator where
  | either | both
  | bitOr | bitXor | bitAnd
  | equal | unequal
  | less | lessEqual | greater | greaterEqual
  | shiftLeft | shiftRight
  | plus | minus
  | times | quotient | remainder
  deriving DecidableEq, Repr

/-- An operator before a number. -/
inductive Sign where
  | plus | minus | bitNot | isZero
  deriving DecidableEq, Repr

/-- An arithmetic expression. -/
inductive Sum where
  | number (n : Int)
  | variable (name : Bytes)
  | signed (sign : Sign) (e : Sum)
  | binary (operator : Operator) (left right : Sum)
  | choose (condition yes no : Sum)
  /-- With an operator the old value is its left side. -/
  | assign (name : Bytes) (operator : Option Operator) (e : Sum)
  deriving Repr

/-- Why an expression has no value. -/
inductive SumFault where
  | expectingPrimary
  | expectingColon
  | expectingClose
  | expectingEnd
  | divisionByZero
  /-- The one quotient that has no 64 bits. It is no error of the shell, but ends it. -/
  | overflow
  | illegalNumber (text : Bytes)
  deriving DecidableEq, Repr

/-- The wording of a fault in the expression with the given text. -/
def SumFault.message (text : String) : SumFault → String
  | .illegalNumber given => s!"Illegal number: {String.ofList given}"
  | fault =>
    let what := match fault with
      | .expectingColon => "expecting ':'"
      | .expectingClose => "expecting ')'"
      | .expectingEnd => "expecting EOF"
      | .divisionByZero => "division by zero"
      | _ => "expecting primary"
    s!"arithmetic expression: {what}: \"{text}\""

namespace Operator

/-- How tightly an operator binds. -/
def level : Operator → Nat
  | .either => 1
  | .both => 2
  | .bitOr => 3
  | .bitXor => 4
  | .bitAnd => 5
  | .equal | .unequal => 6
  | .less | .lessEqual | .greater | .greaterEqual => 7
  | .shiftLeft | .shiftRight => 8
  | .plus | .minus => 9
  | .times | .quotient | .remainder => 10

/-- The operator at the start of a text. -/
def at? : Bytes → Option (Operator × Bytes)
  | '|' :: '|' :: cs => some (.either, cs)
  | '&' :: '&' :: cs => some (.both, cs)
  | '=' :: '=' :: cs => some (.equal, cs)
  | '!' :: '=' :: cs => some (.unequal, cs)
  | '<' :: '<' :: cs => some (.shiftLeft, cs)
  | '>' :: '>' :: cs => some (.shiftRight, cs)
  | '<' :: '=' :: cs => some (.lessEqual, cs)
  | '>' :: '=' :: cs => some (.greaterEqual, cs)
  | '<' :: cs => some (.less, cs)
  | '>' :: cs => some (.greater, cs)
  | '|' :: cs => some (.bitOr, cs)
  | '^' :: cs => some (.bitXor, cs)
  | '&' :: cs => some (.bitAnd, cs)
  | '+' :: cs => some (.plus, cs)
  | '-' :: cs => some (.minus, cs)
  | '*' :: cs => some (.times, cs)
  | '/' :: cs => some (.quotient, cs)
  | '%' :: cs => some (.remainder, cs)
  | _ => none

/-- The assignment at the start of a text, with its operator. -/
def assignmentAt? (cs : Bytes) : Option (Option Operator × Bytes) :=
  match cs with
  | '=' :: '=' :: _ => none
  | '=' :: rest => some (none, rest)
  | _ =>
    match at? cs with
    | some (o, '=' :: rest) =>
      if [.bitOr, .bitXor, .bitAnd, .shiftLeft, .shiftRight, .plus, .minus, .times, .quotient,
          .remainder].contains o then some (some o, rest) else none
    | _ => none

end Operator

/-- Drops white space at the start. -/
def dropSpace (cs : Bytes) : Bytes :=
  cs.dropWhile fun c => c = ' ' || c = '\t' || c = '\n'

/-- The value of a digit. -/
def digitOf (c : Char) : Nat :=
  if c.isDigit then c.toNat - 48 else c.toLower.toNat - 87

/-- The number that digits in a base make. -/
def inBase (base : Nat) (digits : Bytes) : Nat :=
  digits.foldl (fun n d => base * n + digitOf d) 0

/-- Whether a byte is a hexadecimal digit. -/
def isHexDigit (c : Char) : Bool :=
  c.isDigit || ('a' ≤ c && c ≤ 'f') || ('A' ≤ c && c ≤ 'F')

/-- Whether a byte is a binary digit. -/
def isBinaryDigit (c : Char) : Bool :=
  c = '0' || c = '1'

/-- The number at the start of a text: hexadecimal after `0x`, binary after `0b`, octal after a
zero. -/
def numberAt? : Bytes → Option (Nat × Bytes)
  | '0' :: x :: cs =>
    if (x = 'x' || x = 'X') && cs.head?.any isHexDigit then
      some (inBase 16 (cs.takeWhile isHexDigit), cs.dropWhile isHexDigit)
    else if (x = 'b' || x = 'B') && cs.head?.any isBinaryDigit then
      some (inBase 2 (cs.takeWhile isBinaryDigit), cs.dropWhile isBinaryDigit)
    else
      let isOctal (c : Char) : Bool := '0' ≤ c && c ≤ '7'
      let digits := (x :: cs).takeWhile isOctal
      some (inBase 8 digits, (x :: cs).drop digits.length)
  | c :: cs =>
    if c.isDigit then
      some (inBase 10 ((c :: cs).takeWhile Char.isDigit), cs.dropWhile Char.isDigit)
    else none
  | [] => none

mutual

/-- An expression with what follows it. -/
def readSum : Nat → Bytes → Except SumFault (Sum × Bytes)
  | 0, _ => .error .expectingPrimary
  | fuel + 1, cs =>
    let cs := dropSpace cs
    let name := (nameAt? cs).getD []
    match name, Operator.assignmentAt? (dropSpace (cs.drop name.length)) with
    | _ :: _, some (operator, rest) => do
      let (e, rest) ← readSum fuel rest
      pure (.assign name operator e, rest)
    | _, _ => readChoice fuel cs

/-- An expression that is no assignment. -/
def readChoice : Nat → Bytes → Except SumFault (Sum × Bytes)
  | 0, _ => .error .expectingPrimary
  | fuel + 1, cs => do
    let (condition, rest) ← readBinary fuel 1 cs
    match dropSpace rest with
    | '?' :: rest => do
      let (yes, rest) ← readSum fuel rest
      match dropSpace rest with
      | ':' :: rest => do
        let (no, rest) ← readChoice fuel rest
        pure (.choose condition yes no, rest)
      | _ => .error .expectingColon
    | rest => pure (condition, rest)

/-- An expression of operators that bind at least as tightly as `level`. -/
def readBinary : Nat → Nat → Bytes → Except SumFault (Sum × Bytes)
  | 0, _, _ => .error .expectingPrimary
  | fuel + 1, level, cs => do
    let (left, rest) ← readUnary fuel cs
    readOperators fuel level left rest

/-- What is added to an expression by the operators that follow. -/
def readOperators : Nat → Nat → Sum → Bytes → Except SumFault (Sum × Bytes)
  | 0, _, _, _ => .error .expectingPrimary
  | fuel + 1, level, left, cs =>
    match Operator.at? (dropSpace cs) with
    | some (o, rest) =>
      if level ≤ o.level then do
        let (right, rest) ← readBinary fuel (o.level + 1) rest
        readOperators fuel level (.binary o left right) rest
      else .ok (left, dropSpace cs)
    | none => .ok (left, dropSpace cs)

/-- A number, a name, or an expression in brackets, with the signs before it. -/
def readUnary : Nat → Bytes → Except SumFault (Sum × Bytes)
  | 0, _ => .error .expectingPrimary
  | fuel + 1, cs =>
    let signed (sign : Sign) (rest : Bytes) : Except SumFault (Sum × Bytes) := do
      let (e, rest) ← readUnary fuel rest
      pure (.signed sign e, rest)
    match dropSpace cs with
    | '+' :: rest => signed .plus rest
    | '-' :: rest => signed .minus rest
    | '~' :: rest => signed .bitNot rest
    | '!' :: rest => signed .isZero rest
    | '(' :: rest => do
      let (e, rest) ← readSum fuel rest
      match dropSpace rest with
      | ')' :: rest => pure (e, rest)
      | _ => .error .expectingClose
    | cs =>
      match nameAt? cs, numberAt? cs with
      | some name, _ => .ok (.variable name, cs.drop name.length)
      | none, some (n, rest) => .ok (.number n, rest)
      | none, none => .error .expectingPrimary

end

/-- Reads a whole expression. -/
def Sum.read (cs : Bytes) : Except SumFault Sum := do
  let (e, rest) ← readSum (8 * cs.length + 8) cs
  if (dropSpace rest).isEmpty then pure e else .error .expectingEnd

/-- The number of words of 64 bits. -/
def wordCount : Nat := 18446744073709551616

/-- The greatest number of 64 bits. -/
def greatestWord : Int := 9223372036854775807

/-- The least number of 64 bits. -/
def leastWord : Int := -9223372036854775808

/-- Whether a number has 64 bits. -/
def isWord (n : Int) : Bool :=
  decide (leastWord ≤ n ∧ n ≤ greatestWord)

/-- Brings a number into 64 bits. -/
def wrapped (n : Int) : Int :=
  Int.bmod n wordCount

/-- The word of 64 bits that a number has, without sign. -/
def asWord (n : Int) : Nat :=
  (n % (wordCount : Int)).toNat

/-- The number for yes and no. -/
def truth (b : Bool) : Int :=
  if b then 1 else 0

/-- Combines two 64-bit words bit by bit. -/
def bitwise (f : Nat → Nat → Nat) (a b : Int) : Int :=
  wrapped (f (asWord a) (asWord b))

/-- The value of an operator; the connectives are not evaluated here. -/
def Operator.apply (o : Operator) (a b : Int) : Except SumFault Int :=
  match o with
  | .either => .ok (truth (a != 0 || b != 0))
  | .both => .ok (truth (a != 0 && b != 0))
  | .bitOr => .ok (bitwise Nat.lor a b)
  | .bitXor => .ok (bitwise Nat.xor a b)
  | .bitAnd => .ok (bitwise Nat.land a b)
  | .equal => .ok (truth (a == b))
  | .unequal => .ok (truth (a != b))
  | .less => .ok (truth (a < b))
  | .lessEqual => .ok (truth (a ≤ b))
  | .greater => .ok (truth (b < a))
  | .greaterEqual => .ok (truth (b ≤ a))
  | .shiftLeft => .ok (wrapped (a * (Nat.pow 2 (b % 64).toNat : Nat)))
  | .shiftRight => .ok (a / (Nat.pow 2 (b % 64).toNat : Nat))
  | .plus => .ok (wrapped (a + b))
  | .minus => .ok (wrapped (a - b))
  | .times => .ok (wrapped (a * b))
  | .quotient =>
    if b = 0 then .error .divisionByZero
    else if isWord (Int.tdiv a b) then .ok (Int.tdiv a b) else .error .overflow
  | .remainder =>
    if b = 0 then .error .divisionByZero
    else if isWord (Int.tdiv a b) then .ok (Int.tmod a b) else .error .overflow

/-- The number that the value of a parameter stands for; it must have 64 bits. -/
def numberOfValue (value : Bytes) : Except SumFault Int :=
  let cs := dropSpace value
  let (negative, digits) := match cs with
    | '-' :: rest => (true, rest)
    | '+' :: rest => (false, rest)
    | _ => (false, cs)
  if cs.isEmpty then .ok 0
  else
    match numberAt? digits with
    | some (n, rest) =>
      let n : Int := if negative then -(n : Int) else n
      if (dropSpace rest).isEmpty && isWord n then .ok n else .error (.illegalNumber value)
    | none => .error (.illegalNumber value)

/-- The text of a number. -/
def numberText (n : Int) : Bytes :=
  (Integer.text n).toList

/-- The value of an expression with the parameters as it leaves them. New values stand before old
ones. A number that is written out and too great is the greatest one. -/
def Sum.eval (values : List (Bytes × Bytes)) :
    Sum → Except SumFault (Int × List (Bytes × Bytes))
  | .number n => .ok (min n greatestWord, values)
  | .variable name => do
    let n ← numberOfValue ((values.lookup name).getD [])
    pure (n, values)
  | .signed sign e => do
    let (n, values) ← e.eval values
    pure (match sign with
      | .plus => n
      | .minus => wrapped (-n)
      | .bitNot => -n - 1
      | .isZero => truth (n == 0), values)
  | .binary o left right => do
    let (a, values) ← left.eval values
    if o = .either && a != 0 then pure (1, values)
    else if o = .both && a == 0 then pure (0, values)
    else
      let (b, values) ← right.eval values
      pure (← o.apply a b, values)
  | .choose condition yes no => do
    let (n, values) ← condition.eval values
    if n = 0 then no.eval values else yes.eval values
  | .assign name operator e => do
    let (n, values) ← e.eval values
    let n ← match operator with
      | none => pure n
      | some o => do o.apply (← numberOfValue ((values.lookup name).getD [])) n
    pure (n, (name, numberText n) :: values)

end ScriptTree.Shell
