import ScriptTree.Shell.Alias

/-!
What stands at the start of a text of the shell: blanks, names, reserved words, operators, quoted text,
and documents in the lines that follow.
-/

namespace ScriptTree.Shell

/-- Why no command is read. -/
inductive Stop where
  | incomplete
  | unexpected (token : Bytes)
  | badFunctionName
  | badLoopVariable
  deriving DecidableEq, Repr

/-- The wording of an error in the text of a command. -/
def Stop.message : Stop → String
  | .incomplete => "Syntax error: end of file unexpected"
  | .unexpected ['\n'] => "Syntax error: newline unexpected"
  | .unexpected token => s!"Syntax error: \"{String.ofList token}\" unexpected"
  | .badFunctionName => "Syntax error: Bad function name"
  | .badLoopVariable => "Syntax error: Bad for loop variable"

/-! ## Bytes -/

/-- Whether a byte ends a word without quotes; so does the end of the text of an alias. -/
def isMeta (c : Char) : Bool :=
  [' ', '\t', '\n', ';', '&', '|', '<', '>', '(', ')'].contains c || Alias.isMark c

/-- Whether a byte may begin a name. -/
def startsName (c : Char) : Bool :=
  c.isAlpha || c = '_'

/-- Whether a byte may stand in a name. -/
def isNameByte (c : Char) : Bool :=
  c.isAlphanum || c = '_'

/-- The parameters with a name of one byte. -/
def isSpecial (c : Char) : Bool :=
  ['@', '*', '#', '?', '-', '$', '!'].contains c || c.isDigit

/-- The number that decimal digits make. -/
def decimal (digits : Bytes) : Nat :=
  digits.foldl (fun n d => 10 * n + (d.toNat - 48)) 0

/-- The pieces of a text between marks. -/
def pieces (mark : Char) (cs : Bytes) : List Bytes :=
  cs.foldr (fun c pieces =>
    if c = mark then [] :: pieces
    else
      match pieces with
      | piece :: rest => (c :: piece) :: rest
      | [] => [[c]]) [[]]

/-! ## Names -/

/-- The name at the start of a text, if there is one. -/
def nameAt? (cs : Bytes) : Option Bytes :=
  match cs with
  | c :: _ => if startsName c then some (cs.takeWhile isNameByte) else none
  | [] => none

/-- Whether a text is a name. -/
def isName (cs : Bytes) : Bool :=
  nameAt? cs == some cs

/-- The name of a parameter in braces. -/
def parameterAt? (cs : Bytes) : Option (Bytes × Bytes) :=
  match nameAt? cs with
  | some name => some (name, cs.drop name.length)
  | none =>
    match cs with
    | c :: rest =>
      if c.isDigit then some (cs.takeWhile Char.isDigit, cs.dropWhile Char.isDigit)
      else if isSpecial c then some ([c], rest)
      else none
    | [] => none

/-! ## Between words -/

/-- Passes over spaces, line breaks after a backslash, and a comment; with `lines` also over line
breaks and what follows them. -/
def skip (lines : Bool) : Bytes → Bytes
  | '\\' :: '\n' :: cs => skip lines cs
  | '#' :: cs => skipComment lines cs
  | c :: cs =>
    if c = ' ' || c = '\t' || Alias.isMark c || (lines && c = '\n') then skip lines cs else c :: cs
  | [] => []
where
  /-- Passes over the rest of a comment. -/
  skipComment (lines : Bool) : Bytes → Bytes
    | '\n' :: cs => if lines then skip lines cs else '\n' :: cs
    | _ :: cs => skipComment lines cs
    | [] => []

/-- The words that are not commands where a command may begin. -/
def reservedWords : List Bytes :=
  ["!", "\x7b", "\x7d", "if", "then", "elif", "else", "fi", "while", "until", "do", "done", "for",
    "case", "esac"].map bytesOf

/-- All words that mean something to the shell at some place. -/
def keywords : List Bytes :=
  bytesOf "in" :: reservedWords

/-- The reserved words that end what came before. -/
def closingWords : List Bytes :=
  ["\x7d", "then", "elif", "else", "fi", "do", "done", "esac"].map bytesOf

/-- The commands that no function replaces. -/
def specialNames : List String :=
  [".", ":", "break", "continue", "eval", "exec", "exit", "export", "local", "readonly", "return",
    "set", "shift", "times", "trap", "unset"]

/-- The reserved word at the start of a text, and what follows it. -/
def reservedAt? (cs : Bytes) : Option (Bytes × Bytes) :=
  let word := cs.takeWhile (!isMeta ·)
  if reservedWords.contains word then some (word, cs.drop word.length) else none

/-- The error at a text that does not go on as it should. -/
def unexpectedAt (cs : Bytes) : Stop :=
  match cs with
  | [] => .incomplete
  | _ =>
    let word := cs.takeWhile (!isMeta ·)
    .unexpected (if word.isEmpty then cs.take (if cs.take 2 = [';', ';'] then 2 else 1) else word)

/-- Requires a reserved word, before which lines may end. -/
def expectWord (word : String) (cs : Bytes) : Except Stop Bytes :=
  let cs := skip true cs
  let found := cs.takeWhile (!isMeta ·)
  if found = bytesOf word then .ok (cs.drop found.length) else .error (unexpectedAt cs)

/-- Whether a list of commands ends here. -/
def atListEnd (cs : Bytes) : Bool :=
  match cs with
  | [] => true
  | ')' :: _ => true
  | ';' :: ';' :: _ => true
  | _ =>
    match reservedAt? cs with
    | some (word, _) => closingWords.contains word
    | none => false

/-- Puts the text of aliases in the place of names where a command may begin. Every alias is read
at most once at one place, so their number and the length of the text bound the steps. -/
def unalias (aliases : List Alias) (lines : Bool) : Nat → Bytes → Bytes
  | 0, cs => cs
  | steps + 1, cs =>
    let cs := skip lines cs
    let word := cs.takeWhile (!isMeta ·)
    if reservedWords.contains word then cs
    else
      match Alias.inserted? aliases word (cs.drop word.length) with
      | some inserted => unalias aliases lines steps inserted
      | none => cs

/-- The text at a place where a command may begin. -/
def commandStart (aliases : List Alias) (lines : Bool) (cs : Bytes) : Bytes :=
  if aliases.isEmpty then skip lines cs
  else unalias aliases lines (aliases.length + cs.length + 1) cs

/-- The text after a word of a command. The word that follows an alias whose text ends with a blank
may be an alias too. -/
def nextWord (aliases : List Alias) (cs : Bytes) : Bytes :=
  let rest := skip false cs
  if (cs.take (cs.length - rest.length)).any (Alias.endsInBlank aliases) then
    commandStart aliases false rest
  else rest

/-! ## Places of words -/

/-- Where a word stands: it decides what ends it and what is special in it. -/
inductive Place where
  | word
  | double
  | brace (inDouble : Bool)
  | sum (depth : Nat)
  | document
  deriving DecidableEq, Repr

namespace Place

/-- Whether the text may end here. -/
def mayEnd : Place → Bool
  | .word => true
  | .document => true
  | _ => false

/-- Whether single quotes are special. -/
def hasQuotes : Place → Bool
  | .word => true
  | .brace inDouble => !inDouble
  | _ => false

/-- Whether double quotes are special. -/
def hasDoubleQuotes : Place → Bool
  | .word => true
  | .brace _ => true
  | _ => false

/-- Whether a backslash before a byte takes its meaning away. -/
def escapes (p : Place) (c : Char) : Bool :=
  p.hasQuotes || ['$', '\x60', '\\'].contains c || (c = '"' && p != .document) ||
    (c = '\x7d' && p == .brace true)

/-- The place of the word of an adjustment. A pattern has quotes of its own everywhere. -/
def ofAdjustment (p : Place) (how : Adjustment) : Place :=
  match how with
  | .dropStart _ => .brace false
  | .dropEnd _ => .brace false
  | _ => .brace (p != .word && p != .brace false)

end Place

/-! ## Quotes -/

/-- Puts a byte without quotes before some parts. -/
def consPlain (c : Char) : List Part → List Part
  | .plain text :: parts => .plain (c :: text) :: parts
  | parts => .plain [c] :: parts

/-- Puts a byte that stands for itself before some parts. -/
def consQuoted (c : Char) : List Part → List Part
  | .quoted text :: parts => .quoted (c :: text) :: parts
  | parts => .quoted [c] :: parts

/-- The text up to the closing quote, and what follows it. -/
def untilQuote (quote : Char) (cs : Bytes) : Except Stop (Bytes × Bytes) :=
  match cs.dropWhile (· != quote) with
  | [] => .error .incomplete
  | _ :: rest => .ok (Alias.withoutMarks (cs.takeWhile (· != quote)), rest)

/-- The text up to the closing backquote without the backslashes that protect it, and what follows
it. Between double quotes they protect those too. -/
def untilBackquote (inDouble : Bool) : Bytes → Except Stop (Bytes × Bytes)
  | [] => .error .incomplete
  | '\x60' :: rest => .ok ([], rest)
  | '\\' :: '\n' :: rest => untilBackquote inDouble rest
  | '\\' :: c :: rest => do
    let (text, after) ← untilBackquote inDouble rest
    let isProtected := ['$', '\x60', '\\'].contains c || (inDouble && c = '"')
    pure (if isProtected then (c :: text, after) else ('\\' :: c :: text, after))
  | c :: rest => do
    let (text, after) ← untilBackquote inDouble rest
    pure (if Alias.isMark c then (text, after) else (c :: text, after))

/-! ## Operators -/

/-- The way in which a parameter's value is adjusted, whether an empty value counts as none, and
what follows. A way that is none takes a byte all the same. -/
def adjustmentAt : Bytes → Adjustment × Bool × Bytes
  | ':' :: '-' :: cs => (.orElse, true, cs)
  | ':' :: '=' :: cs => (.orAssign, true, cs)
  | ':' :: '?' :: cs => (.orFail, true, cs)
  | ':' :: '+' :: cs => (.ifSet, true, cs)
  | ':' :: _ :: cs => (.unknown, true, cs)
  | '-' :: cs => (.orElse, false, cs)
  | '=' :: cs => (.orAssign, false, cs)
  | '?' :: cs => (.orFail, false, cs)
  | '+' :: cs => (.ifSet, false, cs)
  | '#' :: '#' :: cs => (.dropStart true, false, cs)
  | '#' :: cs => (.dropStart false, false, cs)
  | '%' :: '%' :: cs => (.dropEnd true, false, cs)
  | '%' :: cs => (.dropEnd false, false, cs)
  | _ :: cs => (.unknown, false, cs)
  | [] => (.unknown, false, [])

/-- The operator of a redirection with the stream it is about: the number before it, or that of
input or output. -/
def redirectionAt? (cs : Bytes) : Option (Nat × Bytes × Bytes) :=
  let digits := cs.takeWhile Char.isDigit
  let entry (default : Nat) (operator : String) (rest : Bytes) :=
    some (if digits.isEmpty then default else decimal digits, bytesOf operator, rest)
  match cs.drop digits.length with
  | '<' :: '<' :: '-' :: rest => entry 0 "<<-" rest
  | '<' :: '<' :: rest => entry 0 "<<" rest
  | '<' :: '&' :: rest => entry 0 "&" rest
  | '<' :: '>' :: rest => entry 0 "<>" rest
  | '<' :: rest => entry 0 "<" rest
  | '>' :: '>' :: rest => entry 1 ">>" rest
  | '>' :: '&' :: rest => entry 1 "&" rest
  | '>' :: '|' :: rest => entry 1 ">|" rest
  | '>' :: rest => entry 1 ">" rest
  | _ => none

/-! ## Documents -/

/-- Whether a line goes on in the next one: it ends in a backslash that no other one escapes. -/
def goesOn (line : Bytes) : Bool :=
  (line.reverse.takeWhile (· = '\\')).length % 2 = 1

/-- Takes lines up to the one that is the end mark; with `stripped` tabs at their start go. Where the
text is plain a backslash at the end of a line takes no meaning from the next one; `isNew` tells
whether a line begins. -/
def documentLines (mark : Bytes) (stripped isPlain : Bool) :
    Nat → Bool → Bytes → Except Stop (Bytes × Bytes)
  | 0, _, _ => .error .incomplete
  | fuel + 1, isNew, cs =>
    let line := cs.takeWhile (· != '\n')
    let shown := if stripped && isNew then line.dropWhile (· = '\t') else line
    let isEnd := isNew && shown = mark
    match cs.drop line.length with
    | [] => if isEnd then .ok ([], []) else .error .incomplete
    | _ :: rest =>
      if isEnd then .ok ([], rest)
      else do
        let (body, after) ← documentLines mark stripped isPlain fuel (isPlain || !goesOn line) rest
        pure (shown ++ '\n' :: body, after)

/-- The lines after the present one up to the end mark, and the text without them. -/
def takeDocument (mark : Bytes) (stripped isPlain : Bool) (cs : Bytes) :
    Except Stop (Bytes × Bytes) :=
  let line := cs.takeWhile (· != '\n')
  match cs.drop line.length with
  | [] => .error .incomplete
  | _ :: rest => do
    let (body, after) ← documentLines mark stripped isPlain (rest.length + 1) true rest
    pure (Alias.withoutMarks body, line ++ '\n' :: after)

/-- The text of an end mark without its quotes. -/
def withoutQuotes : Bytes → Bytes
  | '\\' :: c :: cs => c :: withoutQuotes cs
  | c :: cs => if c = '\'' || c = '"' then withoutQuotes cs else c :: withoutQuotes cs
  | [] => []

/-- The end mark that a word is, and whether it has no quotes: then the lines before it are
expanded. -/
def endMark (word : Bytes) : Bytes × Bool :=
  let isQuote (c : Char) : Bool := c = '\'' || c = '"' || c = '\\'
  (withoutQuotes word, !word.any isQuote)

end ScriptTree.Shell
