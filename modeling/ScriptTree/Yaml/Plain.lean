import ScriptTree.Yaml.Scalar

/-!
What a plain scalar means: nothing, yes or no, a number in one of several notations, a date, or
just its text.
-/

namespace ScriptTree.Yaml

/-- The types that a plain scalar can have. -/
inductive Kind where
  | text
  | bool
  | real
  | int
  | merge
  | null
  | moment
  | value
  | mark
  deriving DecidableEq, Repr

/-- Whether a text is a word in small letters, with a capital, or in capitals. -/
def isWord (word : String) (s : String) : Bool :=
  s == word || s == word.capitalize || s == word.toUpper

/-- The words for yes. -/
def yesWords : List String := ["yes", "true", "on"]

/-- The words for no. -/
def noWords : List String := ["no", "false", "off"]

/-- The text without an optional sign. -/
def withoutSign (cs : List Char) : List Char :=
  (Integer.splitSign cs).2

/-- A digit or an underscore. -/
def isFigure (c : Char) : Bool :=
  c.isDigit || c == '_'

/-- Whether a text is a digit and then digits and underscores. -/
def areFigures : List Char → Bool
  | [] => false
  | c :: cs => c.isDigit && cs.all isFigure

/-- A text cut at every character of a kind. -/
def piecesAt (separator : Char) (cs : List Char) : List (List Char) :=
  go [] cs
where
  /-- The pieces, where `piece` holds the one in progress, its last character first. -/
  go (piece : List Char) : List Char → List (List Char)
    | [] => [piece.reverse]
    | c :: cs => if c = separator then piece.reverse :: go [] cs else go (c :: piece) cs

/-- Whether a text is one figure below sixty, of one or two digits. -/
def isSixtieth : List Char → Bool
  | [a] => a.isDigit
  | [a, b] => '0' ≤ a && a ≤ '5' && b.isDigit
  | _ => false

/-- Whether a text is a whole number in base sixty: figures and then parts below sixty, each after
a colon. -/
def isBaseSixty (cs : List Char) : Bool :=
  match piecesAt ':' cs with
  | first :: rest => areFigures first && !rest.isEmpty && rest.all isSixtieth
  | [] => false

/-- Whether a text is a whole number: binary, octal, decimal, hexadecimal or in base sixty. -/
def isInt (cs : List Char) : Bool :=
  match withoutSign cs with
  | ['0'] => true
  | '0' :: 'b' :: rest => !rest.isEmpty && rest.all fun c => c == '0' || c == '1' || c == '_'
  | '0' :: 'x' :: rest => !rest.isEmpty && rest.all fun c => (hexValue? c).isSome || c == '_'
  | '0' :: rest => !rest.isEmpty && rest.all fun c => ('0' ≤ c && c ≤ '7') || c == '_'
  | cs => areFigures cs || isBaseSixty cs

/-- Whether a text is an exponent with a sign, or nothing. -/
def isSignedExponent : List Char → Bool
  | [] => true
  | e :: sign :: digits =>
    (e == 'e' || e == 'E') && (sign == '+' || sign == '-') && !digits.isEmpty &&
      digits.all Char.isDigit
  | _ => false

/-- Whether a text is one of the words for a number without digits. -/
def isSpecialReal (cs : List Char) : Bool :=
  [".inf", ".Inf", ".INF"].contains (String.ofList (withoutSign cs)) ||
    [".nan", ".NaN", ".NAN"].contains (String.ofList cs)

/-- Whether a text is a number with a point. -/
def isReal (cs : List Char) : Bool :=
  let isTail (cs : List Char) : Bool := isSignedExponent (cs.dropWhile isFigure)
  let whole (cs : List Char) : Bool :=
    let (first, rest) := cs.span (· != '.')
    match rest with
    | '.' :: tail => (areFigures first && isTail tail) || (isBaseSixty first && tail.all isFigure)
    | _ => false
  let pointed (cs : List Char) : Bool :=
    match cs with
    | '.' :: d :: tail =>
      d.isDigit && isSignedExponent (tail.dropWhile isFigure)
    | _ => false
  whole (withoutSign cs) || pointed cs || isSpecialReal cs

/-! ## Dates -/

/-- A number of `least` to `most` digits at the start of a text, and the rest. -/
def digitsHere? (least most : Nat) (cs : List Char) : Option (Nat × List Char) :=
  let ds := (cs.take most).takeWhile Char.isDigit
  if ds.length < least then none
  else some (Integer.ofDigits (ds.map fun c => c.toNat - 0x30), cs.drop ds.length)

/-- The rest of a text after a character. -/
def after? (c : Char) : List Char → Option (List Char)
  | [] => none
  | d :: cs => if d = c then some cs else none

/-- A space or a tab. -/
def isSpace (c : Char) : Bool :=
  c == ' ' || c == '\t'

/-- The parts of a date, and of a time of day with its zone if there is one. -/
structure DateParts where
  year : Nat
  month : Nat
  day : Nat
  time : Option (Nat × Nat × Nat × Nat)
  zone : Zone
  deriving Repr

/-- The zone at the end of a date. -/
def zoneOf? (cs : List Char) : Option Zone :=
  match cs.dropWhile isSpace with
  | [] => if cs.isEmpty then some .unknown else none
  | ['Z'] => some .universal
  | sign :: cs =>
    if sign == '+' || sign == '-' then do
      let (hours, cs) ← digitsHere? 1 2 cs
      let (minutes, cs) ← match cs with
        | [] => some (0, [])
        | cs => (after? ':' cs).bind (digitsHere? 2 2)
      if !cs.isEmpty then none
      let total : Int := hours * 60 + minutes
      pure (if total = 0 then .universal else .offset (if sign == '-' then -total else total))
    else none

/-- The millionths of a second that the digits of a fraction give; more than six do not count. -/
def microOf (digits : List Char) : Nat :=
  let ds := digits.take 6
  Integer.ofDigits (ds.map fun c => c.toNat - 0x30) * Nat.pow 10 (6 - ds.length)

/-- The time of day and the zone, after the date. -/
def timeOf? (cs : List Char) : Option ((Nat × Nat × Nat × Nat) × Zone) := do
  let cs ← match cs with
    | 'T' :: rest => some rest
    | 't' :: rest => some rest
    | c :: rest => if isSpace c then some (rest.dropWhile isSpace) else none
    | [] => none
  let (hour, cs) ← digitsHere? 1 2 cs
  let (minute, cs) ← (after? ':' cs).bind (digitsHere? 2 2)
  let (second, cs) ← (after? ':' cs).bind (digitsHere? 2 2)
  let (fraction, cs) := match cs with
    | '.' :: rest => rest.span Char.isDigit
    | cs => ([], cs)
  let zone ← zoneOf? cs
  pure ((hour, minute, second, microOf fraction), zone)

/-- The parts of a date with or without time of day. -/
def dateParts? (cs : List Char) : Option DateParts := do
  let (year, cs) ← digitsHere? 4 4 cs
  let (month, cs) ← (after? '-' cs).bind (digitsHere? 1 2)
  let (day, cs) ← (after? '-' cs).bind (digitsHere? 1 2)
  if cs.isEmpty then pure ⟨year, month, day, none, .unknown⟩
  else do
    let (time, zone) ← timeOf? cs
    pure ⟨year, month, day, some time, zone⟩

/-- Whether a plain scalar is a date; one without time of day has two digits for month and day. -/
def isMoment (cs : List Char) : Bool :=
  match dateParts? cs with
  | some parts => parts.time.isSome || cs.length == 10
  | none => false

/-- A text without one line break at its end, unless it is nothing else. Such a line break does not
count when the type of a scalar is told. -/
def withoutBreak (cs : List Char) : List Char :=
  if 1 < cs.length && cs.getLast? == some '\n' then cs.dropLast else cs

/-- The type of a plain scalar. -/
def kindOf (text : String) : Kind :=
  let cs := withoutBreak text.toList
  let s := String.ofList cs
  if (yesWords ++ noWords).any (isWord · s) then .bool
  else if isReal cs then .real
  else if isInt cs then .int
  else if s = "<<" then .merge
  else if s = "" || s = "~" || isWord "null" s then .null
  else if isMoment cs then .moment
  else if s = "=" then .value
  else if s = "!" || s = "&" || s = "*" then .mark
  else .text

end ScriptTree.Yaml
