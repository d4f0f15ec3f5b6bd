import ScriptTree.Json.Value

/-!
Reading JSON. Besides the standard's values the three words for numbers without digits are read,
and a control character inside a string is refused. A refusal tells what was wanted and where.
Values are read however deep they are nested: the guard that an interpreter sets against running out of
stack, which differs from version to version, is left out.
-/

namespace ScriptTree.Json

/-- What is wrong with a text that is no JSON. -/
inductive Fault where
  | valueWanted
  | keyWanted
  | colonWanted
  | commaWanted
  | openString
  | controlCharacter
  | badEscape
  | badCodeEscape
  | extraData
  | byteOrderMark
  deriving DecidableEq, Repr

/-- The wording of a fault. -/
def Fault.message : Fault → String
  | .valueWanted => "Expecting value"
  | .keyWanted => "Expecting property name enclosed in double quotes"
  | .colonWanted => "Expecting ':' delimiter"
  | .commaWanted => "Expecting ',' delimiter"
  | .openString => "Unterminated string starting at"
  | .controlCharacter => "Invalid control character at"
  | .badEscape => "Invalid \\escape"
  | .badCodeEscape => "Invalid \\uXXXX escape"
  | .extraData => "Extra data"
  | .byteOrderMark => "Unexpected UTF-8 BOM (decode using utf-8-sig)"

/-- Why a text was not read: a fault at a position, counted in characters from zero, or a whole
number with too many digits. -/
inductive ReadError where
  | syntaxFault (fault : Fault) (position : Nat)
  | integerTooLong (digits : Nat)
  deriving DecidableEq, Repr

/-- Line and column of a position, both counted from one. -/
def lineColumn (cs : List Char) (position : Nat) : Nat × Nat :=
  let before := cs.take position
  (before.count '\n' + 1, (before.reverse.takeWhile (· != '\n')).length + 1)

/-- The wording of an error in the given text. -/
def ReadError.message (cs : List Char) : ReadError → String
  | .syntaxFault fault position =>
    let (line, column) := lineColumn cs position
    s!"{fault.message}: line {line} column {column} (char {position})"
  | .integerTooLong digits => Integer.tooLongMessage digits

/-- A refusal inside the text; `remaining` counts the characters from the fault to the end. -/
inductive Refusal where
  | fault (fault : Fault) (remaining : Nat)
  | integerTooLong (digits : Nat)
  deriving DecidableEq, Repr

/-- A reading step: a result and the characters not yet read. -/
abbrev Read (α : Type) := Except Refusal (α × List Char)

/-- White space between tokens. -/
def isSpace (c : Char) : Bool :=
  c == ' ' || c == '\t' || c == '\n' || c == '\r'

/-- Drops white space. -/
def skipSpace (cs : List Char) : List Char :=
  cs.dropWhile isSpace

/-- The value of a hexadecimal digit. -/
def hexValue? (c : Char) : Option Nat :=
  let n := c.toNat
  if 0x30 ≤ n && n ≤ 0x39 then some (n - 0x30)
  else if 0x61 ≤ n && n ≤ 0x66 then some (n - 0x61 + 10)
  else if 0x41 ≤ n && n ≤ 0x46 then some (n - 0x41 + 10)
  else none

/-- The number written by four hexadecimal digits. -/
def hexFour? (a b c d : Char) : Option Nat := do
  let a ← hexValue? a
  let b ← hexValue? b
  let c ← hexValue? c
  let d ← hexValue? d
  pure (((a * 16 + b) * 16 + c) * 16 + d)

/-- Whether a number is the first half of a surrogate pair. -/
def isHighSurrogate (n : Nat) : Bool := 0xd800 ≤ n && n < 0xdc00

/-- Whether a number is the second half of a surrogate pair. -/
def isLowSurrogate (n : Nat) : Bool := 0xdc00 ≤ n && n < 0xe000

/-- The point with a code. -/
def pointOfCode (n : Nat) : Point :=
  if isHighSurrogate n || isLowSurrogate n then .half (Fin.ofNat 2048 (n - Point.firstHalf))
  else .char (Char.ofNat n)

/-- The character that an escape of one letter stands for. -/
def shortEscape? (c : Char) : Option Char :=
  match c with
  | '"' => some '"'
  | '\\' => some '\\'
  | '/' => some '/'
  | 'b' => some '\x08'
  | 'f' => some '\x0c'
  | 'n' => some '\n'
  | 'r' => some '\r'
  | 't' => some '\t'
  | _ => none

/-- What follows the backslash and the letter `u`: the point, and the rest behind it. Two escapes
for the halves of a surrogate pair are read together. At least one character must follow
the digits. -/
def readCodeEscape (cs : List Char) : Read Point :=
  match cs with
  | a :: b :: c :: d :: rest =>
    match hexFour? a b c d, rest with
    | none, _ => .error (.fault .badCodeEscape (cs.length + 1))
    | some _, [] => .error (.fault .badCodeEscape (cs.length + 1))
    | some n, rest =>
      if isHighSurrogate n then
        match rest with
        | '\\' :: 'u' :: e :: f :: g :: h :: more =>
          if more.isEmpty then .ok (pointOfCode n, rest)
          else
            match hexFour? e f g h with
            | none => .error (.fault .badCodeEscape (rest.length - 1))
            | some m =>
              if isLowSurrogate m then
                .ok (.char (Char.ofNat (0x10000 + (n - 0xd800) * 0x400 + (m - 0xdc00))), more)
              else .ok (pointOfCode n, rest)
        | _ => .ok (pointOfCode n, rest)
      else .ok (pointOfCode n, rest)
  | _ => .error (.fault .badCodeEscape (cs.length + 1))

theorem readCodeEscape_length {cs : List Char} {p : Point} {rest : List Char}
    (h : readCodeEscape cs = .ok (p, rest)) : rest.length < cs.length := by
  unfold readCodeEscape at h
  split at h
  · split at h
    · cases h
    · cases h
    · split at h
      · split at h
        · split at h
          · simp only [Except.ok.injEq, Prod.mk.injEq] at h
            obtain ⟨_, rfl⟩ := h
            simp only [List.length_cons]; omega
          · split at h
            · cases h
            · split at h
              · simp only [Except.ok.injEq, Prod.mk.injEq] at h
                obtain ⟨_, rfl⟩ := h
                simp only [List.length_cons]; omega
              · simp only [Except.ok.injEq, Prod.mk.injEq] at h
                obtain ⟨_, rfl⟩ := h
                simp only [List.length_cons]; omega
        · simp only [Except.ok.injEq, Prod.mk.injEq] at h
          obtain ⟨_, rfl⟩ := h
          simp only [List.length_cons]; omega
      · simp only [Except.ok.injEq, Prod.mk.injEq] at h
        obtain ⟨_, rfl⟩ := h
        simp only [List.length_cons]; omega
  · cases h

/-- The rest of a string after its opening quote; `opening` counts the characters from that quote
to the end. -/
def readString (opening : Nat) (cs : List Char) : Read Points :=
  match cs with
  | [] => .error (.fault .openString opening)
  | '"' :: rest => .ok ([], rest)
  | '\\' :: rest =>
    match rest with
    | [] => .error (.fault .openString opening)
    | 'u' :: more =>
      match h : readCodeEscape more with
      | .error e => .error e
      | .ok (p, after) =>
        have : after.length < more.length := readCodeEscape_length h
        match readString opening after with
        | .ok (s, tail) => .ok (p :: s, tail)
        | .error e => .error e
    | e :: more =>
      match shortEscape? e with
      | none => .error (.fault .badEscape (rest.length + 1))
      | some c =>
        match readString opening more with
        | .ok (s, tail) => .ok (.char c :: s, tail)
        | .error e => .error e
  | c :: rest =>
    if c.toNat < 0x20 then .error (.fault .controlCharacter (rest.length + 1))
    else
      match readString opening rest with
      | .ok (s, tail) => .ok (.char c :: s, tail)
      | .error e => .error e
termination_by cs.length
decreasing_by all_goals (simp_wf; try omega)

/-- The digits at the start of a text, and the rest. -/
def spanDigits (cs : List Char) : List Char × List Char :=
  (cs.takeWhile Char.isDigit, cs.dropWhile Char.isDigit)

/-- The number with the given decimal digits. -/
def natOf (ds : List Char) : Nat :=
  ds.foldl (fun n c => 10 * n + (c.toNat - 0x30)) 0

/-- The digits after a point, if a digit follows it. -/
def readFraction (cs : List Char) : Option (List Char) × List Char :=
  match cs with
  | '.' :: d :: rest =>
    if d.isDigit then
      let (ds, rest) := spanDigits (d :: rest)
      (some ds, rest)
    else (none, cs)
  | _ => (none, cs)

/-- The exponent after its letter, if a digit follows, perhaps after a sign. -/
def readExponent (cs : List Char) : Option Int × List Char :=
  match cs with
  | e :: rest =>
    if e = 'e' || e = 'E' then
      let (negative, rest) := Integer.splitSign rest
      match spanDigits rest with
      | ([], _) => (none, cs)
      | (ds, rest) => (some (if negative then -(natOf ds : Int) else natOf ds), rest)
    else (none, cs)
  | [] => (none, cs)

/-- A number without its sign, `none` where no digit stands. A leading zero stands alone. -/
def readNumber (negative : Bool) (cs : List Char) : Option (Read Value) :=
  match cs with
  | [] => none
  | d :: rest =>
    if !d.isDigit then none
    else
      let (whole, rest) := if d = '0' then (['0'], rest) else spanDigits (d :: rest)
      let (fraction, rest) := readFraction rest
      let (exponent, rest) := readExponent rest
      some <|
        if fraction.isNone && exponent.isNone then
          if whole.length > Integer.digitLimit then .error (.integerTooLong whole.length)
          else .ok (.int (if negative then -(natOf whole : Int) else natOf whole), rest)
        else
          let digits := fraction.getD []
          .ok (.real (Binary64.ofDecimal negative (natOf (whole ++ digits))
            (exponent.getD 0 - digits.length)), rest)

/-- Drops a word from the start of a text. -/
def dropWord? (word : List Char) (cs : List Char) : Option (List Char) :=
  if word.isPrefixOf cs then some (cs.drop word.length) else none

/-- A word or a number. -/
def readAtom (cs : List Char) : Read Value :=
  let wanted : Read Value := .error (.fault .valueWanted cs.length)
  let word (w : String) (v : Value) (other : Read Value) : Read Value :=
    match dropWord? w.toList cs with
    | some rest => .ok (v, rest)
    | none => other
  match cs with
  | '-' :: rest =>
    word "-Infinity" (.real (.infinity true)) ((readNumber true rest).getD wanted)
  | 'n' :: _ => word "null" .null wanted
  | 't' :: _ => word "true" (.bool true) wanted
  | 'f' :: _ => word "false" (.bool false) wanted
  | 'N' :: _ => word "NaN" (.real .nan) wanted
  | 'I' :: _ => word "Infinity" (.real (.infinity false)) wanted
  | cs => (readNumber false cs).getD wanted

mutual

/-- One value. Each level of nesting and each item takes one unit of `fuel`; the length of the
text is always enough. -/
def readValue (fuel : Nat) (cs : List Char) : Read Value :=
  match fuel with
  | 0 => .error (.fault .valueWanted cs.length)
  | fuel + 1 =>
    match cs with
    | '"' :: rest =>
      match readString cs.length rest with
      | .ok (s, rest) => .ok (.text s, rest)
      | .error e => .error e
    | '[' :: rest =>
      match skipSpace rest with
      | ']' :: rest => .ok (.list [], rest)
      | rest =>
        match readItems fuel rest with
        | .ok (xs, rest) => .ok (.list xs, rest)
        | .error e => .error e
    | '\x7b' :: rest =>
      match skipSpace rest with
      | '\x7d' :: rest => .ok (.object [], rest)
      | rest =>
        match readFields fuel rest with
        | .ok (fs, rest) => .ok (.object (Value.ofFields fs), rest)
        | .error e => .error e
    | cs => readAtom cs

/-- The items of a list up to its closing bracket. -/
def readItems (fuel : Nat) (cs : List Char) : Read (List Value) :=
  match fuel with
  | 0 => .error (.fault .valueWanted cs.length)
  | fuel + 1 =>
    match readValue fuel cs with
    | .error e => .error e
    | .ok (x, rest) =>
      match skipSpace rest with
      | ']' :: rest => .ok ([x], rest)
      | ',' :: rest =>
        match readItems fuel (skipSpace rest) with
        | .ok (xs, rest) => .ok (x :: xs, rest)
        | .error e => .error e
      | rest => .error (.fault .commaWanted rest.length)

/-- The fields of an object up to its closing brace. -/
def readFields (fuel : Nat) (cs : List Char) : Read (List (Points × Value)) :=
  match fuel with
  | 0 => .error (.fault .keyWanted cs.length)
  | fuel + 1 =>
    match cs with
    | '"' :: rest =>
      match readString cs.length rest with
      | .error e => .error e
      | .ok (key, rest) =>
        match skipSpace rest with
        | ':' :: rest =>
          match readValue fuel (skipSpace rest) with
          | .error e => .error e
          | .ok (v, rest) =>
            match skipSpace rest with
            | '\x7d' :: rest => .ok ([(key, v)], rest)
            | ',' :: rest =>
              match readFields fuel (skipSpace rest) with
              | .ok (fs, rest) => .ok ((key, v) :: fs, rest)
              | .error e => .error e
            | rest => .error (.fault .commaWanted rest.length)
        | rest => .error (.fault .colonWanted rest.length)
    | cs => .error (.fault .keyWanted cs.length)

end

/-- Reads a whole text as one value. -/
def readChars (cs : List Char) : Except ReadError Value :=
  let place : Refusal → ReadError
    | .fault fault remaining => .syntaxFault fault (cs.length - remaining)
    | .integerTooLong digits => .integerTooLong digits
  if cs.head? = some (Char.ofNat 0xfeff) then .error (.syntaxFault .byteOrderMark 0)
  else
    match readValue (2 * cs.length + 1) (skipSpace cs) with
    | .error e => .error (place e)
    | .ok (v, rest) =>
      match skipSpace rest with
      | [] => .ok v
      | rest => .error (place (.fault .extraData rest.length))

/-- Reads a whole text as one value. -/
def read (s : String) : Except ReadError Value :=
  readChars s.toList

end ScriptTree.Json
