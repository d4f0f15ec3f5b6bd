import ScriptTree.Shell.Arithmetic

/-!
The conditions of `test` and its bracket form. A word is an operator only where the words after it
allow it.
-/

namespace ScriptTree.Shell

/-- Why a condition is neither true nor false. -/
inductive ConditionFault where
  | illegalNumber (text : Bytes)
  | unexpectedOperator (word : Bytes)
  | argumentExpected (operator : Bytes)
  | missingBracket
  | missingClose
  deriving DecidableEq, Repr

/-- The wording of a fault. -/
def ConditionFault.message : ConditionFault → String
  | .illegalNumber text => s!"Illegal number: {String.ofList text}"
  | .unexpectedOperator [] => "unexpected operator"
  | .unexpectedOperator word => s!"{String.ofList word}: unexpected operator"
  | .argumentExpected operator => s!"{String.ofList operator}: argument expected"
  | .missingBracket => "missing ]"
  | .missingClose => "closing paren expected"

/-- What a condition asks about files. -/
structure FileTests where
  isFile : Bytes → Bool
  isDirectory : Bytes → Bool
  isDevice : Bytes → Bool
  isFilled : Bytes → Bool
  isExecutable : Bytes → Bool
  areSame : Bytes → Bytes → Bool

/-- Whether anything stands at a path. -/
def FileTests.isThere (files : FileTests) (word : Bytes) : Bool :=
  files.isFile word || files.isDirectory word || files.isDevice word

/-- What a word of a condition is. -/
inductive TestWord where
  | operand
  | unary (operator : Bytes)
  | binary (operator : Bytes)
  | negation
  | both
  | either
  | opening
  | closing
  /-- There is no word. -/
  | none
  deriving DecidableEq, Repr

/-- The operators before a word. -/
def unaryOperators : List Bytes :=
  ["-r", "-w", "-x", "-e", "-f", "-d", "-c", "-b", "-p", "-u", "-g", "-k", "-s", "-t", "-z", "-n",
    "-h", "-O", "-G", "-L", "-S"].map bytesOf

/-- The operators between two words. -/
def binaryOperators : List Bytes :=
  ["=", "!=", "<", ">", "-eq", "-ne", "-ge", "-gt", "-le", "-lt", "-nt", "-ot", "-ef"].map bytesOf

/-- What a word is before words of which there are many enough for it. -/
def TestWord.ofWord (word : Bytes) : TestWord :=
  if unaryOperators.contains word then .unary word
  else if binaryOperators.contains word then .binary word
  else
    match String.ofList word with
    | "!" => .negation
    | "-a" => .both
    | "-o" => .either
    | "(" => .opening
    | ")" => .closing
    | _ => .operand

/-- Whether a word is an operator between two words. -/
def isBinary (word : Bytes) : Bool :=
  binaryOperators.contains word

/-- What the first of some words is. -/
def TestWord.ofWords : List Bytes → TestWord
  | [] => .none
  | word :: rest =>
    match TestWord.ofWord word, rest with
    | .unary _, [] => .operand
    | .unary operator, [_] => .unary operator
    | .unary operator, next :: _ => if isBinary next then .operand else .unary operator
    | .opening, [] => .operand
    | sign, _ => sign

/-- A number in a condition. -/
def testedNumber (text : Bytes) : Except ConditionFault Int :=
  let cs := dropSpace text
  let (negative, digits) := match cs with
    | '-' :: rest => (true, rest)
    | '+' :: rest => (false, rest)
    | _ => (false, cs)
  let after := dropSpace (digits.dropWhile Char.isDigit)
  let digits := digits.takeWhile Char.isDigit
  let n : Int := if negative then -(inBase 10 digits : Int) else inBase 10 digits
  if digits.isEmpty || !after.isEmpty || !isWord n then .error (.illegalNumber text) else .ok n

/-- The condition between two words. -/
def comparison (files : FileTests) (operator left right : Bytes) : Except ConditionFault Bool :=
  let numeric (f : Int → Int → Bool) : Except ConditionFault Bool := do
    pure (f (← testedNumber left) (← testedNumber right))
  match String.ofList operator with
  | "=" => .ok (left == right)
  | "!=" => .ok (left != right)
  | "<" => .ok (decide (left < right))
  | ">" => .ok (decide (right < left))
  | "-eq" => numeric fun a b => a == b
  | "-ne" => numeric fun a b => a != b
  | "-lt" => numeric fun a b => decide (a < b)
  | "-le" => numeric fun a b => decide (a ≤ b)
  | "-gt" => numeric fun a b => decide (b < a)
  | "-ge" => numeric fun a b => decide (b ≤ a)
  | "-ef" => .ok (files.areSame left right)
  | _ => .ok false

/-- The condition on one word. -/
def property (files : FileTests) (operator word : Bytes) : Except ConditionFault Bool :=
  match String.ofList operator with
  | "-n" => .ok !word.isEmpty
  | "-z" => .ok word.isEmpty
  | "-f" => .ok (files.isFile word)
  | "-d" => .ok (files.isDirectory word)
  | "-c" => .ok (files.isDevice word)
  | "-e" | "-r" | "-w" | "-O" | "-G" => .ok (files.isThere word)
  | "-x" => .ok (files.isDirectory word || files.isExecutable word)
  | "-s" => .ok (files.isFilled word)
  | "-t" => (testedNumber word).map fun _ => false
  | _ => .ok false

section

variable (files : FileTests)

mutual

/-- Conditions connected by `-o`, the first word being what `sign` tells, with the words from the
last one read on. -/
def readEither : Nat → TestWord → List Bytes → Except ConditionFault (Bool × List Bytes)
  | 0, _, _ => .error .missingClose
  | fuel + 1, sign, words => do
    let (a, rest) ← readBoth fuel sign words
    if TestWord.ofWords rest.tail = .either then
      let words := rest.tail.tail
      let (b, rest) ← readEither fuel (.ofWords words) words
      pure (a || b, rest)
    else pure (a, rest)

/-- Conditions connected by `-a`. -/
def readBoth : Nat → TestWord → List Bytes → Except ConditionFault (Bool × List Bytes)
  | 0, _, _ => .error .missingClose
  | fuel + 1, sign, words => do
    let (a, rest) ← readNegated fuel sign words
    if TestWord.ofWords rest.tail = .both then
      let words := rest.tail.tail
      let (b, rest) ← readBoth fuel (.ofWords words) words
      pure (a && b, rest)
    else pure (a, rest)

/-- A condition with the negations before it. -/
def readNegated : Nat → TestWord → List Bytes → Except ConditionFault (Bool × List Bytes)
  | 0, _, _ => .error .missingClose
  | fuel + 1, sign, words =>
    if sign = .negation then do
      let next := TestWord.ofWords words.tail
      let (a, rest) ← readNegated fuel next (if next = .none then words else words.tail)
      pure (!a, rest)
    else readPrimary fuel sign words

/-- One condition. -/
def readPrimary : Nat → TestWord → List Bytes → Except ConditionFault (Bool × List Bytes)
  | 0, _, _ => .error .missingClose
  | fuel + 1, sign, words =>
    match sign, words with
    | .none, _ => .ok (false, words)
    | .opening, _ :: words => do
      let next := TestWord.ofWords words
      if next = .closing then pure (false, words)
      else
        let (a, rest) ← readEither fuel next words
        if TestWord.ofWords rest.tail = .closing then pure (a, rest.tail) else .error .missingClose
    | .unary operator, _ :: words =>
      match words with
      | word :: _ => (property files operator word).map (·, words)
      | [] => .error (.argumentExpected operator)
    | _, word :: rest =>
      match TestWord.ofWords rest, rest with
      | .binary operator, _ :: right :: more =>
        (comparison files operator word right).map (·, right :: more)
      | .binary operator, _ => .error (.argumentExpected operator)
      | _, _ => .ok (!word.isEmpty, words)
    | _, [] => .ok (false, [])

end

/-- Whether a condition of some words holds. Where there are three or four, the second one decides
first whether it is a comparison, and then a bracket around all or a negation of the rest count
before anything else; of two negations before two words only one counts. -/
def holds : List Bytes → Except ConditionFault Bool
  | [] => .ok false
  | words@(first :: rest) =>
    let fuel := 8 * words.length + 8
    let finish (sign : TestWord) (words : List Bytes) : Except ConditionFault Bool := do
      match ← readEither files fuel sign words with
      | (a, [_]) => pure a
      | (a, []) => pure a
      | (_, last :: _) => .error (.unexpectedOperator last)
    let isShort := words.length = 3 || words.length = 4
    if words.length = 3 && isBinary (rest.headD []) then finish .operand words
    else if isShort && first = ['('] && words.getLast? = some [')'] then
      finish (.ofWords rest.dropLast) rest.dropLast
    else if words.length = 4 && [first] ++ rest.take 1 = [['!'], ['!']] then holds rest
    else if isShort && first = ['!'] then (holds rest).map (!·)
    else finish (.ofWords words) words

end

end ScriptTree.Shell
