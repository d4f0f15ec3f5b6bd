import ScriptTree.Number.Binary64
import ScriptTree.Shell.Arithmetic

/-!
The output of `echo` and `printf`: escapes after a backslash, and directives after a percent sign.
-/

namespace ScriptTree.Shell

/-- What an escape writes. -/
inductive Escape where
  | byte (c : Char)
  /-- The backslash stands for itself. -/
  | none
  /-- The output ends. -/
  | stop
  deriving DecidableEq, Repr

/-- Whether a byte is an octal digit. -/
def isOctalDigit (c : Char) : Bool :=
  '0' ≤ c && c ≤ '7'

/-- The byte that the first octal digits of a text give, at most `most` of them, and what follows
them. -/
def octalByte (most : Nat) (cs : Bytes) : Char × Bytes :=
  let digits := (cs.take most).takeWhile isOctalDigit
  (Char.ofNat (inBase 8 digits % 256), cs.drop digits.length)

/-- The escape after a backslash, and what follows it. In an argument, a zero comes before the octal
digits, and one escape ends all output. -/
def escapeAfter (inArgument : Bool) (cs : Bytes) : Escape × Bytes :=
  match cs with
  | 'a' :: rest => (.byte '\x07', rest)
  | 'b' :: rest => (.byte '\x08', rest)
  | 'e' :: rest => (.byte '\x1b', rest)
  | 'f' :: rest => (.byte '\x0c', rest)
  | 'n' :: rest => (.byte '\n', rest)
  | 'r' :: rest => (.byte '\r', rest)
  | 't' :: rest => (.byte '\t', rest)
  | 'v' :: rest => (.byte '\x0b', rest)
  | '\\' :: rest => (.byte '\\', rest)
  | 'c' :: rest => if inArgument then (.stop, rest) else (.none, cs)
  | '0' :: rest =>
    let (c, rest) := if inArgument then octalByte 3 rest else octalByte 3 cs
    (.byte c, rest)
  | c :: _ =>
    if isOctalDigit c then
      let (c, rest) := octalByte 3 cs
      (.byte c, rest)
    else (.none, cs)
  | [] => (.none, cs)

/-- An argument with its escapes carried out, and whether the output ends in it; `fuel` is its
length. -/
def unescapedFrom : Nat → Bytes → Bytes × Bool
  | fuel + 1, '\\' :: cs =>
    match escapeAfter true cs with
    | (.byte c, rest) =>
      let (text, stops) := unescapedFrom fuel rest
      (c :: text, stops)
    | (.none, rest) =>
      let (text, stops) := unescapedFrom fuel rest
      ('\\' :: text, stops)
    | (.stop, _) => ([], true)
  | fuel + 1, c :: cs =>
    let (text, stops) := unescapedFrom fuel cs
    (c :: text, stops)
  | _, _ => ([], false)

/-- An argument with its escapes carried out, and whether the output ends in it. -/
def unescaped (cs : Bytes) : Bytes × Bool :=
  unescapedFrom cs.length cs

/-- What `echo` writes: its words with spaces between them and a line break, which the option `-n`
takes away. -/
def echoed (words : List Bytes) : Bytes :=
  let (lineEnd, words) := match words with
    | ['-', 'n'] :: rest => ([], rest)
    | _ => (['\n'], words)
  let (text, stops) := unescaped (List.intercalate [' '] words)
  if stops then text else text ++ lineEnd

/-- A directive: its flags, width, precision and conversion. A star takes an argument. -/
structure Directive where
  flags : Bytes
  width : Bytes
  precision : Option Bytes
  conversion : Char
  deriving DecidableEq, Repr

/-- What a directive or an argument is complained about for. -/
inductive FormatFault where
  | invalidDirective (text : Bytes)
  | missingConversion
  | notNumeric (argument : Bytes)
  | notConverted (argument : Bytes)
  | outOfRange (argument : Bytes)
  | tooLong
  deriving DecidableEq, Repr

namespace FormatFault

/-- The wording of a complaint. -/
def message : FormatFault → String
  | .invalidDirective text => s!"{String.ofList text}: invalid directive"
  | .missingConversion => "missing format character"
  | .notNumeric argument => s!"{String.ofList argument}: expected numeric value"
  | .notConverted argument => s!"{String.ofList argument}: not completely converted"
  | .outOfRange argument => s!"{String.ofList argument}: Numerical result out of range"
  | .tooLong => "xvsnprintf failed"

/-- The status that a complaint gives. A format that cannot be gone on with is a fault of its
own. -/
def status : FormatFault → Nat
  | .invalidDirective _ => 2
  | .missingConversion => 2
  | .tooLong => 2
  | _ => 1

end FormatFault

/-! ## Numbers -/

/-- The sign before a number, and the digits after it. -/
def signed (cs : Bytes) : Bool × Bytes :=
  match dropSpace cs with
  | '-' :: rest => (true, rest)
  | '+' :: rest => (false, rest)
  | rest => (false, rest)

/-- What an argument is complained about for whose number ends before `rest`. -/
def unreadFaults (argument rest : Bytes) : List FormatFault :=
  if rest.isEmpty then [] else [.notConverted argument]

/-- The byte after a quote, which stands for its number. -/
def quotedByte? (argument : Bytes) : Option Nat :=
  match argument with
  | '\'' :: rest => some (rest.headD '\x00').toNat
  | '"' :: rest => some (rest.headD '\x00').toNat
  | _ => none

/-- The whole number that an argument stands for: that of a byte after a quote, or a number, of which
zero is all that is left if it is none. It has 64 bits, with a sign or without. -/
def wholeArgument (unsigned : Bool) (argument : Bytes) : Int × List FormatFault :=
  match quotedByte? argument with
  | some n => (n, [])
  | none =>
    let (negative, digits) := signed argument
    match numberAt? digits with
    | some (n, rest) =>
      let value : Int := if negative then -(n : Int) else n
      let (low, high) : Int × Int :=
        if unsigned then (-(wordCount - 1 : Nat), (wordCount - 1 : Nat))
        else (leastWord, greatestWord)
      if low ≤ value ∧ value ≤ high then (value, unreadFaults argument rest)
      else (if value < low && !unsigned then low else high, [.outOfRange argument])
    | none => (0, if argument.isEmpty then [] else [.notNumeric argument])

/-- The digits of a decimal, its power of ten, and what follows it, if there are digits. A
hexadecimal number is read too. -/
def decimalAt? (cs : Bytes) : Option (Nat × Int × Bytes) :=
  if ["0x", "0X"].any (bytesOf · = cs.take 2) && (cs.drop 2).head?.any isHexDigit then
    (numberAt? cs).map fun found => (found.1, 0, found.2)
  else
  let whole := cs.takeWhile Char.isDigit
  let rest := cs.drop whole.length
  let (part, rest) := match rest with
    | '.' :: more => (more.takeWhile Char.isDigit, more.dropWhile Char.isDigit)
    | _ => ([], rest)
  let power (more : Bytes) : Option (Int × Bytes) :=
    let (negative, digits) := match more with
      | '-' :: ds => (true, ds)
      | '+' :: ds => (false, ds)
      | ds => (false, ds)
    let n := decimal (digits.takeWhile Char.isDigit)
    if digits.head?.any Char.isDigit then
      some (if negative then -(n : Int) else n, digits.dropWhile Char.isDigit)
    else none
  let (exponent, rest) := match rest with
    | 'e' :: more => (power more).getD (0, rest)
    | 'E' :: more => (power more).getD (0, rest)
    | _ => (0, rest)
  if whole.isEmpty && part.isEmpty then none
  else some (decimal (whole ++ part), exponent - part.length, rest)

/-- The real number that an argument stands for. -/
def realArgument (argument : Bytes) : Binary64 × List FormatFault :=
  match quotedByte? argument with
  | some n => (.ofInt n, [])
  | none =>
    let (negative, cs) := signed argument
    let lower := String.ofList (cs.map Char.toLower)
    if ["inf", "infinity"].contains lower then (.infinity negative, [])
    else if lower = "nan" then (.nan, [])
    else
      match decimalAt? cs with
      | some (digits, exponent, rest) =>
        (.ofDecimal negative digits exponent, unreadFaults argument rest)
      | none => (.zero, if argument.isEmpty then [] else [.notNumeric argument])

/-! ## Fields -/

/-- A text in a field of a width, at its left or right side. -/
def inField (left : Bool) (width : Nat) (cs : Bytes) : Bytes :=
  let padding := List.replicate (width - cs.length) ' '
  if left then cs ++ padding else padding ++ cs

/-- The digits of a number with zeros before them up to a number of digits. -/
def digitsWith (count base : Nat) (n : Nat) : Bytes :=
  let digits := if n = 0 && count = 0 then [] else Nat.toDigits base n
  List.replicate (count - digits.length) '0' ++ digits

namespace Directive

/-- Whether a flag is set. -/
def has (d : Directive) (flag : Char) : Bool :=
  d.flags.contains flag

/-- The sign that a number is written with. -/
def signText (d : Directive) (negative : Bool) : Bytes :=
  if negative then ['-'] else if d.has '+' then ['+'] else if d.has ' ' then [' '] else []

/-- A number in its field: zeros that fill it stand after the sign. -/
def numberField (left : Bool) (width : Nat) (filled : Bool) (sign body : Bytes) : Bytes :=
  if filled && !left then sign ++ List.replicate (width - sign.length - body.length) '0' ++ body
  else inField left width (sign ++ body)

/-- A whole number as a directive writes it. -/
def wholeText (d : Directive) (left : Bool) (width : Nat) (precision : Option Nat) (n : Int) :
    Bytes :=
  let word := asWord n
  let count := precision.getD 1
  let (sign, body) : Bytes × Bytes := match d.conversion with
    | 'x' => (if d.has '#' && n != 0 then ['0', 'x'] else [], digitsWith count 16 word)
    | 'X' =>
      (if d.has '#' && n != 0 then ['0', 'X'] else [],
        (digitsWith count 16 word).map Char.toUpper)
    | 'o' =>
      let digits := digitsWith count 8 word
      ([], if d.has '#' && digits.head? != some '0' then '0' :: digits else digits)
    | 'u' => ([], digitsWith count 10 word)
    | _ => (d.signText (n < 0), digitsWith count 10 n.natAbs)
  numberField left width (d.has '0' && precision.isNone) sign body

/-- Digits with a point before the last `places` of them. -/
def pointed (d : Directive) (places n : Nat) : Bytes :=
  let digits := digitsWith (places + 1) 10 n
  let whole := digits.take (digits.length - places)
  if places = 0 then (if d.has '#' then whole ++ ['.'] else whole)
  else whole ++ '.' :: digits.drop (digits.length - places)

/-- A text of digits without the zeros at its end and a point that is left there. -/
def withoutZeros (cs : Bytes) : Bytes :=
  if cs.contains '.' then
    ((cs.reverse.dropWhile (· = '0')).dropWhile (· = '.')).reverse
  else cs

/-- The digits of a fraction above zero in the form with an exponent: as a whole number of
`places + 1` digits, and the power of ten of the first one. -/
def leading (places num den : Nat) : Nat × Int :=
  let guess : Int := (Binary64.decimalLength num : Int) - Binary64.decimalLength den
  let atLeast (e : Int) : Bool :=
    if 0 ≤ e then decide (den * Nat.pow 10 e.toNat ≤ num)
    else decide (den ≤ num * Nat.pow 10 (-e).toNat)
  let e := if atLeast guess then guess else guess - 1
  let shift : Int := places - e
  let n := if 0 ≤ shift then Binary64.nearest (num * Nat.pow 10 shift.toNat) den
    else Binary64.nearest num (den * Nat.pow 10 (-shift).toNat)
  if n = Nat.pow 10 (places + 1) then (Nat.pow 10 places, e + 1) else (n, e)

/-- The exponent of a number, with its sign and at least two digits. -/
def exponentText (e : Int) : Bytes :=
  'e' :: (if e < 0 then '-' else '+') :: digitsWith 2 10 e.natAbs

/-- A fraction with a number of places after the point, or before its exponent. -/
def fractionText (d : Directive) (precision num den : Nat) : Bytes :=
  let scientific (places : Nat) : Bytes × Int :=
    let (n, e) := if num = 0 then (0, 0) else leading places num den
    (d.pointed places n, e)
  let fixed (places : Nat) : Bytes :=
    d.pointed places (Binary64.nearest (num * Nat.pow 10 places) den)
  match d.conversion.toLower with
  | 'f' => fixed precision
  | 'e' =>
    let (digits, e) := scientific precision
    digits ++ exponentText e
  | _ =>
    let most := max precision 1
    let (digits, e) := scientific (most - 1)
    let short (cs : Bytes) : Bytes := if d.has '#' then cs else withoutZeros cs
    if e < -4 || (most : Int) ≤ e then short digits ++ exponentText e
    else short (fixed ((most : Int) - 1 - e).toNat)

/-- A real number as a directive writes it. -/
def realText (d : Directive) (left : Bool) (width : Nat) (precision : Option Nat) (x : Binary64) :
    Bytes :=
  let cased (cs : Bytes) : Bytes := if d.conversion.isUpper then cs.map Char.toUpper else cs
  let sign := d.signText x.hasMinus
  match x, x.ratio? with
  | .nan, _ => inField left width (cased (sign ++ bytesOf "nan"))
  | _, some (n, den) =>
    numberField left width (d.has '0') sign
      (cased (d.fractionText (precision.getD 6) n.natAbs den))
  | _, none => inField left width (cased (sign ++ bytesOf "inf"))

end Directive

/-! ## Printing -/

/-- What `printf` has written and complained about, and the arguments that are left. -/
structure Printing where
  output : Bytes
  faults : List FormatFault
  arguments : List Bytes
  /-- Whether all output ends. -/
  isStopped : Bool
  deriving Repr

namespace Printing

/-- Writes bytes. -/
def write (p : Printing) (cs : Bytes) : Printing :=
  { p with output := p.output ++ cs }

/-- Takes the next argument, an empty one where none is left. -/
def take (p : Printing) : Bytes × Printing :=
  (p.arguments.headD [], { p with arguments := p.arguments.tail })

/-- Takes the next argument as a whole number. -/
def takeWhole (p : Printing) (unsigned : Bool) : Int × Printing :=
  let (argument, p) := p.take
  let (n, faults) := wholeArgument unsigned argument
  (n, { p with faults := p.faults ++ faults })

/-- Takes the next argument as a real number. -/
def takeReal (p : Printing) : Binary64 × Printing :=
  let (argument, p) := p.take
  let (x, faults) := realArgument argument
  (x, { p with faults := p.faults ++ faults })

end Printing

/-- The greatest number of bytes that a directive writes. -/
def longestField : Nat := 2147483646

/-- A number of which the lowest 32 bits are kept. -/
def asHalfWord (n : Int) : Int :=
  let low := n.emod 4294967296
  if low < 2147483648 then low else low - 4294967296

/-- Carries a directive out. -/
def Directive.run (d : Directive) (p : Printing) : Printing :=
  let size (text : Bytes) (p : Printing) : Int × Printing :=
    if text = ['*'] then
      let (n, p) := p.takeWhole false
      (asHalfWord n, p)
    else (inBase 10 text, p)
  let (width, p) := size d.width p
  let left := d.has '-' || width < 0
  let width := width.natAbs
  let (precision, p) : Option Nat × Printing := match d.precision with
    | none => (none, p)
    | some text =>
      let (n, p) := size text p
      (if n < 0 then none else some n.toNat, p)
  let cut (cs : Bytes) : Bytes := match precision with
    | some n => cs.take n
    | none => cs
  if longestField < max width (precision.getD 0) then
    { p with faults := p.faults ++ [.tooLong], isStopped := true }
  else
  match d.conversion with
  | 's' =>
    let (argument, p) := p.take
    p.write (inField left width (cut argument))
  | 'b' =>
    let (argument, p) := p.take
    let (text, stops) := unescaped argument
    { p.write (inField left width (cut text)) with isStopped := stops }
  | 'c' =>
    let (argument, p) := p.take
    p.write (inField left width [argument.headD '\x00'])
  | c =>
    if ['e', 'E', 'f', 'F', 'g', 'G'].contains c then
      let (x, p) := p.takeReal
      p.write (d.realText left width precision x)
    else
      let (n, p) := p.takeWhole (c != 'd' && c != 'i')
      p.write (d.wholeText left width precision n)

/-- The directive after a percent sign and what follows it, or why there is none. -/
def directiveAt (cs : Bytes) : Except FormatFault (Directive × Bytes) :=
  let isFlag (c : Char) : Bool := ['-', '+', ' ', '#', '0'].contains c
  let size (cs : Bytes) : Bytes × Bytes := match cs with
    | '*' :: rest => (['*'], rest)
    | _ => (cs.takeWhile Char.isDigit, cs.dropWhile Char.isDigit)
  let flags := cs.takeWhile isFlag
  let (width, rest) := size (cs.dropWhile isFlag)
  let (precision, rest) := match rest with
    | '.' :: rest =>
      let (digits, rest) := size rest
      (some digits, rest)
    | _ => (none, rest)
  match rest with
  | c :: rest =>
    if "sbcdiouxXeEfFgG".toList.contains c then .ok (⟨flags, width, precision, c⟩, rest)
    else .error (.invalidDirective ('%' :: cs.take (cs.length - rest.length)))
  | [] => .error .missingConversion

/-- Goes through a format once. -/
def formatOnce : Nat → Bytes → Printing → Printing
  | fuel + 1, '\\' :: cs, p =>
    match escapeAfter false cs with
    | (.byte c, rest) => formatOnce fuel rest (p.write [c])
    | (_, rest) => formatOnce fuel rest (p.write ['\\'])
  | fuel + 1, '%' :: '%' :: cs, p => formatOnce fuel cs (p.write ['%'])
  | fuel + 1, '%' :: cs, p =>
    match directiveAt cs with
    | .ok (d, rest) =>
      let p := d.run p
      if p.isStopped then p else formatOnce fuel rest p
    | .error fault => { p with faults := p.faults ++ [fault], isStopped := true }
  | fuel + 1, c :: cs, p => formatOnce fuel cs (p.write [c])
  | _, _, p => p

/-- Goes through a format again as long as it takes arguments and some are left. -/
def formatAll : Nat → Bytes → Printing → Printing
  | 0, _, p => p
  | rounds + 1, format, p =>
    let next := formatOnce format.length format p
    if next.isStopped || next.arguments.isEmpty || next.arguments.length = p.arguments.length then
      next
    else formatAll rounds format next

/-- What `printf` writes and complains about. -/
def printed (format : Bytes) (arguments : List Bytes) : Bytes × List FormatFault :=
  let p := formatAll (arguments.length + 1) format ⟨[], [], arguments, false⟩
  (p.output, p.faults)

end ScriptTree.Shell
