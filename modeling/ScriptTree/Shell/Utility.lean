import ScriptTree.File.Store
import ScriptTree.Shell.Format
import ScriptTree.Shell.Pattern

/-!
The programs that commands of the shell call most: each makes its output of its arguments and its
input.
-/

namespace ScriptTree.Shell

/-- What a program leaves: its output, the lines of its complaints, its exit code, and whether it read
its input. -/
structure Result where
  output : Bytes
  complaints : List String
  status : Nat
  tookInput : Bool
  deriving Repr

namespace Result

/-- Output of a program that succeeds. -/
def ok (output : Bytes) : Result := ⟨output, [], 0, false⟩

/-- A program that fails without output. -/
def fail (status : Nat) (complaint : String) : Result := ⟨[], [complaint], status, false⟩

/-- Output of a program that tells yes or no by its status. -/
def answer (output : Bytes) (yes : Bool) : Result := ⟨output, [], if yes then 0 else 1, false⟩

end Result

/-- A call of a program: its name and arguments, what comes in, and how files are read. -/
structure Call where
  name : String
  arguments : List Bytes
  input : Bytes
  read : Bytes → Except FileFault Bytes

/-! ## Lines -/

/-- The lines of a text; a last one without line break counts. -/
def linesOf (cs : Bytes) : List Bytes :=
  go [] cs
where
  /-- The lines, where `line` holds what is read of the first one, the last byte first. -/
  go (line : Bytes) : Bytes → List Bytes
    | [] => if line.isEmpty then [] else [line.reverse]
    | c :: cs => if c = '\n' then line.reverse :: go [] cs else go (c :: line) cs

/-- Lines as a text. -/
def ofLines (lines : List Bytes) : Bytes :=
  lines.flatMap (· ++ ['\n'])

/-! ## Options -/

/-- The options that letters after a dash are, and the last of them if its value is still to come.
The letters in `valued` take what follows them as their value. -/
def optionLetters (valued : Bytes) : Bytes → List (Char × Bytes) × Option Char
  | [] => ([], none)
  | c :: cs =>
    if valued.contains c then
      if cs.isEmpty then ([], some c) else ([(c, cs)], none)
    else
      let (found, pending) := optionLetters valued cs
      ((c, []) :: found, pending)

/-- The options among the arguments of a program, and the other arguments, where the option `pending`
waits for its value. -/
def optionsFrom (valued : Bytes) (pending : Option Char) :
    List Bytes → List (Char × Bytes) × List Bytes
  | [] => ([], [])
  | word :: words =>
    let put (first : List (Char × Bytes)) (pending : Option Char) :=
      let (found, others) := optionsFrom valued pending words
      (first ++ found, others)
    match pending, word with
    | some letter, value => put [(letter, value)] none
    | none, ['-', '-'] => ([], words)
    | none, '-' :: c :: cs =>
      let (found, pending) := optionLetters valued (c :: cs)
      put found pending
    | none, word =>
      let (found, others) := optionsFrom valued none words
      (found, word :: others)

/-- The options among the arguments of a program, and the other arguments. -/
def optionsIn (valued : Bytes) (words : List Bytes) : List (Char × Bytes) × List Bytes :=
  optionsFrom valued none words

/-! ## Files -/

/-- The wording of a fault of a file in a complaint. -/
def faultText : FileFault → String
  | .missing => "No such file or directory"
  | .notDirectory => "Not a directory"
  | .isDirectory => "Is a directory"
  | .nameTooLong => "File name too long"
  | .nullCharacter => "No such file or directory"
  | .denied => "Permission denied"

/-- What a program reads: the content of each file it names, or what comes in. -/
structure Reading where
  pieces : List (Bytes × Bytes)
  complaints : List String
  tookInput : Bool

namespace Reading

/-- Reads the files that a program names, or what comes in. -/
def of (c : Call) (names : List Bytes) : Reading :=
  if names.isEmpty then ⟨[(['-'], c.input)], [], true⟩
  else
    names.foldl (fun r name =>
      if name = ['-'] then
        { r with
          pieces := r.pieces ++ [(name, if r.tookInput then [] else c.input)], tookInput := true }
      else
        match c.read name with
        | .ok content => { r with pieces := r.pieces ++ [(name, content)] }
        | .error fault =>
          { r with
            complaints := r.complaints ++
              [s!"{c.name}: {String.ofList name}: {faultText fault}"] }) ⟨[], [], false⟩

/-- The content of all files, one after the other. -/
def content (r : Reading) : Bytes :=
  r.pieces.flatMap (·.2)

/-- The result of a program that makes this output of what it reads. -/
def giving (r : Reading) (output : Bytes) : Result :=
  { output, complaints := r.complaints
    status := if r.complaints.isEmpty then 0 else 1, tookInput := r.tookInput }

/-- The outputs of a program for each file, with their names above them if there are several. -/
def titled (r : Reading) (output : Bytes → Bytes) : Result :=
  let titled (i : Nat) (piece : Bytes × Bytes) : Bytes :=
    (if i = 0 then [] else ['\n']) ++ bytesOf "==> " ++ piece.1 ++ bytesOf " <==\n" ++ output piece.2
  if r.pieces.length + r.complaints.length ≤ 1 then r.giving (r.pieces.flatMap (output ·.2))
  else r.giving (r.pieces.mapIdx titled).flatten

end Reading

/-- What a program makes of all that it reads. -/
def filtered (c : Call) (names : List Bytes) (f : Bytes → Bytes) : Result :=
  let r := Reading.of c names
  r.giving (f r.content)

/-! ## Parts of texts -/

/-- The share of a text that `head` and `tail` are asked for: a number of lines or bytes, counted
from the start or the end. -/
structure Share where
  count : Nat
  ofBytes : Bool
  fromStart : Bool
  fromEnd : Bool

/-- The share that options ask for. -/
def Share.ofOptions (options : List (Char × Bytes)) : Share :=
  let digits := (options.filter (·.1.isDigit)).map (·.1)
  let share (ofBytes : Bool) (count : Bytes) : Share :=
    { count := decimal (count.filter Char.isDigit), ofBytes
      fromStart := count.head? = some '+', fromEnd := count.head? = some '-' }
  match options.lookup 'n', options.lookup 'c' with
  | some count, _ => share false count
  | _, some count => share true count
  | _, _ => if digits.isEmpty then share false ['1', '0'] else share false digits

/-- The start of a text. -/
def Share.head (s : Share) (cs : Bytes) : Bytes :=
  let size (n : Nat) : Nat := if s.fromEnd then n - s.count else s.count
  if s.ofBytes then cs.take (size cs.length)
  else
    let lines := linesOf cs
    if lines.length ≤ size lines.length then cs else ofLines (lines.take (size lines.length))

/-- The end of a text. -/
def Share.tail (s : Share) (cs : Bytes) : Bytes :=
  let passed (n : Nat) : Nat := if s.fromStart then s.count - 1 else n - s.count
  if s.ofBytes then cs.drop (passed cs.length)
  else cs.drop (ofLines ((linesOf cs).take (passed (linesOf cs).length))).length

/-- What `head` and `tail` print. -/
def runShare (c : Call) (part : Share → Bytes → Bytes) : Result :=
  let (options, names) := optionsIn ['n', 'c'] c.arguments
  (Reading.of c names).titled (part (.ofOptions options))

/-- Ranges of numbers between commas; an open one goes on without end. -/
def rangesOf (cs : Bytes) : List (Nat × Option Nat) :=
  (pieces ',' cs).map fun piece =>
    match pieces '-' piece with
    | [first, last] =>
      (if first.isEmpty then 1 else decimal first, if last.isEmpty then none else some (decimal last))
    | _ => (decimal piece, some (decimal piece))

/-- The items whose numbers, from one on, are in some ranges. -/
def inRanges {α : Type} (ranges : List (Nat × Option Nat)) (items : List α) : List α :=
  (items.mapIdx fun i a => (i + 1, a)).filterMap fun e =>
    if ranges.any fun r => r.1 ≤ e.1 && r.2.all (e.1 ≤ ·) then some e.2 else none

/-- What `cut` prints. -/
def runCut (c : Call) : Result :=
  let (options, names) := optionsIn ['d', 'f', 'c', 'b'] c.arguments
  let delimiter := ((options.lookup 'd').getD ['\t']).headD '\t'
  let ofLine (line : Bytes) : List Bytes :=
    match options.lookup 'f', (options.lookup 'c').or (options.lookup 'b') with
    | some fields, _ =>
      if line.contains delimiter then
        [List.intercalate [delimiter] (inRanges (rangesOf fields) (pieces delimiter line))]
      else if (options.lookup 's').isSome then []
      else [line]
    | none, some places => [inRanges (rangesOf places) line]
    | none, none => []
  if options.any fun o => ['f', 'c', 'b'].contains o.1 then
    filtered c names fun cs => ofLines ((linesOf cs).flatMap ofLine)
  else .fail 1 "cut: you must specify a list of bytes, characters, or fields"

/-! ## Numbers -/

/-- The whole number that a text is. -/
def wholeNumber? (cs : Bytes) : Option Int :=
  let (negative, digits) := match cs with
    | '-' :: rest => (true, rest)
    | _ => (false, cs)
  if digits.isEmpty || !(digits.all Char.isDigit) then none
  else some (if negative then -(decimal digits : Int) else decimal digits)

/-- The numbers from one to another in steps. -/
def sequence (first step last : Int) : List Int :=
  if step = 0 then []
  else
    let count := if 0 < step then (last - first) / step + 1 else (first - last) / (-step) + 1
    (List.range count.toNat).map fun i : Nat => first + step * i

/-- What `seq` prints. -/
def runSequence (c : Call) : Result :=
  let (separator, words) : Bytes × List Bytes := match c.arguments with
    | ['-', 's'] :: mark :: words => (mark, words)
    | ('-' :: 's' :: mark) :: words => (mark, words)
    | words => (['\n'], words)
  let write (first step last : Int) : Result :=
    let numbers := (sequence first step last).map numberText
    .ok (if numbers.isEmpty then [] else List.intercalate separator numbers ++ ['\n'])
  match words.map wholeNumber? with
  | [some last] => write 1 1 last
  | [some first, some last] => write first 1 last
  | [some first, some step, some last] => write first step last
  | _ => .fail 1 "seq: missing operand"

/-- The number of words of a text. -/
def numberOfWords (cs : Bytes) : Nat :=
  (cs.foldl (fun (state : Nat × Bool) c =>
    let isSpace := [' ', '\t', '\n', '\r', '\x0b', '\x0c'].contains c
    (if !isSpace && !state.2 then state.1 + 1 else state.1, !isSpace)) (0, false)).1

/-- The numbers of lines, words and bytes of a text. -/
def countsOf (cs : Bytes) : List (Char × Nat) :=
  [('l', cs.count '\n'), ('w', numberOfWords cs), ('c', cs.length)]

/-- What `wc` prints: a row for each file, and for all if there are several. -/
def runCount (c : Call) : Result :=
  let (options, names) := optionsIn [] c.arguments
  let flags := options.map (·.1)
  let isWanted (kind : Char) : Bool :=
    flags.isEmpty || flags.contains kind || (kind = 'c' && flags.contains 'm')
  let r := Reading.of c names
  let total := r.content
  let wanted (cs : Bytes) : List Bytes :=
    ((countsOf cs).filter (isWanted ·.1)).map fun e => numberText e.2
  let width := if (wanted total).length = 1 && names.length ≤ 1 then 1
    else if names.isEmpty then 7 else (numberText total.length).length
  let row (cs name : Bytes) : Bytes :=
    List.intercalate [' '] ((wanted cs).map (inField false width)) ++
      (if names.isEmpty then [] else ' ' :: name) ++ ['\n']
  let sum := if names.length ≤ 1 then [] else row total (bytesOf "total")
  r.giving (r.pieces.flatMap (fun p => row p.2 p.1) ++ sum)

/-- The value of an arithmetic expression of words, if it is one that is known here. -/
def expressionValue (words : List Bytes) : Except String Bytes :=
  let truthText (b : Bool) : Bytes := numberText (truth b)
  match words with
  | [a] => .ok a
  | [['l', 'e', 'n', 'g', 't', 'h'], a] => .ok (numberText a.length)
  | [a, o, b] =>
    match wholeNumber? a, Operator.at? (if o = ['='] then ['=', '='] else o), wholeNumber? b with
    | some m, some (o, []), some n =>
      match o.apply m n with
      | .ok r => .ok (numberText r)
      | .error _ => .error "division by zero"
    | _, some (.equal, []), _ => .ok (truthText (a == b))
    | _, some (.unequal, []), _ => .ok (truthText (a != b))
    | _, some (.less, []), _ => .ok (truthText (decide (a < b)))
    | _, some (.lessEqual, []), _ => .ok (truthText (!decide (b < a)))
    | _, some (.greater, []), _ => .ok (truthText (decide (b < a)))
    | _, some (.greaterEqual, []), _ => .ok (truthText (!decide (a < b)))
    | _, some (.either, _), _ => .error "syntax error"
    | _, some _, _ => .error "non-integer argument"
    | _, none, _ => .error s!"syntax error: unexpected argument '{String.ofList o}'"
  | [] => .error "missing operand"
  | _ => .error "syntax error"

/-- What `expr` prints. -/
def runExpression (c : Call) : Result :=
  match expressionValue c.arguments with
  | .ok text => .answer (text ++ ['\n']) (!(text.isEmpty || text = ['0']))
  | .error fault => .fail 2 s!"expr: {fault}"

/-! ## Bytes and lines -/

/-- The bytes of a set of `tr`. -/
def setBytes : Nat → Bytes → Bytes
  | fuel + 1, '[' :: ':' :: cs =>
    let name := cs.takeWhile (· != ':')
    let bytes := (List.range 128).map Char.ofNat |>.filter (SetMember.named (String.ofList name)).holds
    bytes ++ setBytes fuel (cs.drop (name.length + 2))
  | fuel + 1, '\\' :: cs =>
    match escapeAfter false cs with
    | (.byte c, rest) => c :: setBytes fuel rest
    | (_, rest) => '\\' :: setBytes fuel rest
  | fuel + 1, a :: '-' :: b :: cs =>
    (List.range (b.toNat + 1 - a.toNat)).map (fun i => Char.ofNat (a.toNat + i)) ++
      setBytes fuel cs
  | fuel + 1, c :: cs => c :: setBytes fuel cs
  | _, _ => []

/-- The byte that `tr` puts for one. -/
def translated (source target : Bytes) (c : Char) : Char :=
  match source.idxOf? c with
  | some i => (target[i]?).getD (target.getLast?.getD c)
  | none => c

/-- A text in which a byte that a set holds does not follow itself. -/
def squeezed (isIn : Char → Bool) : Bytes → Bytes
  | a :: b :: cs =>
    if a = b && isIn a then squeezed isIn (b :: cs) else a :: squeezed isIn (b :: cs)
  | cs => cs

/-- What `tr` prints. -/
def runTranslate (c : Call) : Result :=
  let (options, sets) := optionsIn [] c.arguments
  let has (flag : Char) : Bool := options.any (·.1 = flag)
  let set (cs : Bytes) : Bytes := setBytes cs.length cs
  let isIn (source : Bytes) (b : Char) : Bool :=
    (set source).contains b != (has 'c' || has 'C')
  let ofInput (output : Bytes) : Result := ⟨output, [], 0, true⟩
  match sets with
  | [source] =>
    if has 'd' then ofInput (c.input.filter (!isIn source ·))
    else if has 's' then ofInput (squeezed (isIn source) c.input)
    else .fail 1 "tr: missing operand"
  | [source, target] =>
    let put (b : Char) : Char :=
      if has 'c' || has 'C' then
        (if isIn source b then (set target).getLast?.getD b else b)
      else translated (set source) (set target) b
    let output := c.input.map put
    ofInput (if has 's' then squeezed (set target).contains output else output)
  | _ => .fail 1 "tr: missing operand"

/-- The number at the start of a line. -/
def lineNumber (cs : Bytes) : Int :=
  match dropSpace cs with
  | '-' :: rest => -(decimal (rest.takeWhile Char.isDigit) : Int)
  | rest => decimal (rest.takeWhile Char.isDigit)

/-- Whether a line comes before another one or at its place, by their keys, and by the whole lines
where these are the same. -/
def sortsBefore (numeric reversed : Bool) (key : Bytes → Bytes) (a b : Bytes) : Bool :=
  let below (x y : Bytes) : Bool :=
    if numeric then decide (lineNumber x < lineNumber y) else decide (x < y)
  if below (key a) (key b) then !reversed
  else if below (key b) (key a) then reversed
  else if reversed then !decide (a < b) else !decide (b < a)

/-- The part of a line that decides about its order. -/
def sortKey (options : List (Char × Bytes)) (line : Bytes) : Bytes :=
  match options.lookup 'k' with
  | none => line
  | some field =>
    let n := decimal (field.takeWhile Char.isDigit)
    match options.lookup 't' with
    | some (mark :: _) => List.intercalate [mark] ((pieces mark line).drop (n - 1))
    | _ => List.intercalate [' '] (((pieces ' ' line).filter (!·.isEmpty)).drop (n - 1))

/-- What `sort` prints. -/
def runSort (c : Call) : Result :=
  let (options, names) := optionsIn ['k', 't'] c.arguments
  let has (flag : Char) : Bool := options.any (·.1 = flag)
  filtered c names fun cs =>
    let lines := (linesOf cs).mergeSort (sortsBefore (has 'n') (has 'r') (sortKey options))
    ofLines (if has 'u' then lines.eraseDups else lines)

/-- The lines of a text, where equal lines that follow each other are one, with their number. -/
def runsOf (lines : List Bytes) : List (Nat × Bytes) :=
  lines.foldr (fun line runs =>
    match runs with
    | (n, other) :: rest => if other = line then (n + 1, line) :: rest else (1, line) :: runs
    | [] => [(1, line)]) []

/-- What `uniq` prints. -/
def runUnique (c : Call) : Result :=
  let (options, names) := optionsIn [] c.arguments
  let has (flag : Char) : Bool := options.any (·.1 = flag)
  filtered c names fun cs =>
    let runs := (runsOf (linesOf cs)).filter fun e =>
      if has 'd' then 1 < e.1 else if has 'u' then e.1 = 1 else true
    ofLines (runs.map fun (n, line) =>
      if has 'c' then inField false 7 (numberText n) ++ ' ' :: line else line)

/-! ## Paths -/

/-- The last part of a path, without an ending. -/
def baseName (path ending : Bytes) : Bytes :=
  let p := Path.ofText (String.ofList path)
  let name := if p.parts.isEmpty then p.text.toList else p.name.toList
  if !ending.isEmpty && ending.isSuffixOf name && name != ending then
    name.take (name.length - ending.length)
  else name

/-! ## All of them -/

/-- The result of a program, if it is one of those known here. -/
def runUtility? (c : Call) : Option Result :=
  match c.name with
  | "head" => some (runShare c Share.head)
  | "tail" => some (runShare c Share.tail)
  | "cut" => some (runCut c)
  | "seq" => some (runSequence c)
  | "wc" => some (runCount c)
  | "tr" => some (runTranslate c)
  | "sort" => some (runSort c)
  | "uniq" => some (runUnique c)
  | "expr" => some (runExpression c)
  | "tac" => some (filtered c c.arguments fun cs => ofLines (linesOf cs).reverse)
  | "rev" => some (filtered c c.arguments fun cs => ofLines ((linesOf cs).map List.reverse))
  | "basename" =>
    some (.ok (baseName (c.arguments.headD []) (c.arguments.getD 1 []) ++ ['\n']))
  | "dirname" =>
    let path := (Path.ofText (String.ofList (c.arguments.headD []))).parent
    some (.ok (bytesOf path.text ++ ['\n']))
  | "yes" =>
    let word := if c.arguments.isEmpty then ['y'] else List.intercalate [' '] c.arguments
    some (.ok (ofLines (List.replicate 16384 word)))
  | _ => none

end ScriptTree.Shell
