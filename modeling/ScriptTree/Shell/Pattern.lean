import ScriptTree.Shell.Syntax

/-!
Patterns of the shell: a star for any text, a question mark for any byte, and sets in brackets.
-/

namespace ScriptTree.Shell

/-- A byte of a pattern, and whether it only stands for itself. -/
abbrev PatternByte := Char × Bool

/-- One of the things that a set in brackets holds: the bytes of a range or of a named class. -/
inductive SetMember where
  | range (first last : Char)
  | named (name : String)
  deriving DecidableEq, Repr

/-- A step of a pattern. -/
inductive PatternStep where
  | exact (c : Char)
  | anyOne
  | anyText
  /-- One byte in, or not in, a set. -/
  | oneOf (negated : Bool) (members : List SetMember)
  deriving DecidableEq, Repr

/-! ## Sets -/

/-- The tests of the named classes, on ASCII bytes. -/
def namedClasses : List (String × (Char → Bool)) :=
  let isPrinted (c : Char) : Bool := ' ' ≤ c && c ≤ '~'
  [("alnum", Char.isAlphanum), ("alpha", Char.isAlpha), ("blank", fun c => c = ' ' || c = '\t'),
   ("cntrl", fun c => c < ' ' || c = '\x7f'), ("digit", Char.isDigit),
   ("graph", fun c => isPrinted c && c != ' '), ("lower", Char.isLower), ("print", isPrinted),
   ("punct", fun c => isPrinted c && c != ' ' && !c.isAlphanum),
   ("space", fun c => c = ' ' || ('\t' ≤ c && c ≤ '\r')), ("upper", Char.isUpper),
   ("xdigit", fun c => c.isDigit || ('a' ≤ c && c ≤ 'f') || ('A' ≤ c && c ≤ 'F'))]

/-- The place of a byte in the order of ranges, in which bytes that are not ASCII come first. -/
def rangeKey (c : Char) : Int :=
  if c.toNat < 128 then c.toNat else (c.toNat : Int) - 256

/-- Whether a member of a set holds a byte. -/
def SetMember.holds (m : SetMember) (c : Char) : Bool :=
  match m with
  | .range first last => decide (rangeKey first ≤ rangeKey c ∧ rangeKey c ≤ rangeKey last)
  | .named name => ((namedClasses.lookup name).map (· c)).getD false

/-- The named class after an opening bracket, and what follows it. -/
def classAt? (cs : List PatternByte) : Option (String × List PatternByte) :=
  match cs with
  | (':', false) :: rest =>
    let name := String.ofList ((rest.takeWhile (·.1.isAlpha)).map (·.1))
    match rest.drop name.length, namedClasses.lookup name with
    | (':', false) :: (']', false) :: after, some _ => some (name, after)
    | _, _ => none
  | _ => none

/-- The members up to the closing bracket, and what follows it. A bracket that comes first is one
of the set. -/
def setMembers : Nat → Bool → List PatternByte → Option (List SetMember × List PatternByte)
  | 0, _, _ => none
  | _ + 1, _, [] => none
  | fuel + 1, isFirst, (c, isQuoted) :: rest =>
    if c = ']' && !isQuoted && !isFirst then some ([], rest)
    else
      match c, isQuoted, classAt? rest with
      | '[', false, some (name, after) =>
        (setMembers fuel false after).map fun (ms, after) => (.named name :: ms, after)
      | _, _, _ =>
        match rest with
        | ('-', false) :: (']', false) :: _ =>
          (setMembers fuel false rest).map fun (ms, after) => (.range c c :: ms, after)
        | ('-', false) :: (d, _) :: more =>
          (setMembers fuel false more).map fun (ms, after) => (.range c d :: ms, after)
        | _ => (setMembers fuel false rest).map fun (ms, after) => (.range c c :: ms, after)

/-! ## Reading -/

/-- Reads a pattern; `fuel` is at least its length. A bracket that is not closed is itself. -/
def patternSteps : Nat → List PatternByte → List PatternStep
  | 0, _ => []
  | _ + 1, [] => []
  | fuel + 1, (c, true) :: rest => .exact c :: patternSteps fuel rest
  | fuel + 1, ('*', false) :: rest => .anyText :: patternSteps fuel rest
  | fuel + 1, ('?', false) :: rest => .anyOne :: patternSteps fuel rest
  | fuel + 1, ('[', false) :: rest =>
    let (negated, body) := match rest with
      | ('!', false) :: more => (true, more)
      | _ => (false, rest)
    match setMembers (body.length + 1) true body with
    | some (members, after) => .oneOf negated members :: patternSteps fuel after
    | none => .exact '[' :: patternSteps fuel rest
  | fuel + 1, (c, false) :: rest => .exact c :: patternSteps fuel rest

/-- The steps of a pattern. -/
def patternOf (bytes : List PatternByte) : List PatternStep :=
  patternSteps (bytes.length + 1) bytes

/-- Whether a pattern has a step that matches more than one text. -/
def isPattern (steps : List PatternStep) : Bool :=
  steps.any fun
    | .exact _ => false
    | _ => true

/-! ## Matching -/

/-- Whether a pattern matches a whole text. -/
def PatternStep.matchesAll : List PatternStep → Bytes → Bool
  | [], text => text.isEmpty
  | .anyText :: steps, [] => matchesAll steps []
  | .anyText :: steps, c :: text =>
    matchesAll steps (c :: text) || matchesAll (.anyText :: steps) text
  | _ :: _, [] => false
  | .exact d :: steps, c :: text => c == d && matchesAll steps text
  | .anyOne :: steps, _ :: text => matchesAll steps text
  | .oneOf negated members :: steps, c :: text =>
    (members.any (·.holds c)) != negated && matchesAll steps text
termination_by steps text => steps.length + text.length

/-- The text without the shortest or longest start that a pattern matches. -/
def dropStart (steps : List PatternStep) (longest : Bool) (text : Bytes) : Bytes :=
  let cuts := (List.range (text.length + 1)).filter fun n =>
    PatternStep.matchesAll steps (text.take n)
  match if longest then cuts.getLast? else cuts.head? with
  | some n => text.drop n
  | none => text

/-- The text without the shortest or longest end that a pattern matches. -/
def dropEnd (steps : List PatternStep) (longest : Bool) (text : Bytes) : Bytes :=
  let cuts := (List.range (text.length + 1)).filter fun n =>
    PatternStep.matchesAll steps (text.drop n)
  match if longest then cuts.head? else cuts.getLast? with
  | some n => text.take n
  | none => text

end ScriptTree.Shell
