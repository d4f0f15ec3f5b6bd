import ScriptTree.Shell.Token

/-!
Reading commands of the shell. A command may need more text than there is: then it is incomplete,
and is read again when more has come. Every reader takes fuel, of which the length of the text with
that of all aliases is enough.
-/

namespace ScriptTree.Shell

section Commands

/- The aliases that count, and the number of the line in which the text ends: a command is in the
line before it by as many lines as follow. -/
variable (aliases : List Alias) (lastLine : Nat)

mutual

/-- The parts of a word, up to what ends it in its place. -/
def readParts : Nat → Place → Bytes → Except Stop (List Part × Bytes)
  | 0, _, _ => .error .incomplete
  | _ + 1, place, [] => if place.mayEnd then .ok ([], []) else .error .incomplete
  | fuel + 1, place, c :: rest =>
    let plain (cs : Bytes) (place : Place) : Except Stop (List Part × Bytes) := do
      let (parts, after) ← readParts fuel place cs
      pure (consPlain c parts, after)
    match place, c with
    | .double, '"' => .ok ([], rest)
    | .brace _, '\x7d' => .ok ([], rest)
    | .sum depth, '(' => plain rest (.sum (depth + 1))
    | .sum 0, ')' =>
      match rest with
      | ')' :: after => .ok ([], after)
      | _ => .error (unexpectedAt rest)
    | .sum (depth + 1), ')' => plain rest (.sum depth)
    | place, '\\' =>
      match rest with
      | '\n' :: more => readParts fuel place more
      | d :: more =>
        if place.escapes d then do
          let (parts, after) ← readParts fuel place more
          pure (consQuoted d parts, after)
        else plain rest place
      | [] => if place = .document then .ok ([.plain ['\\']], []) else .error .incomplete
    | place, '\'' =>
      if place.hasQuotes then do
        let (text, more) ← untilQuote '\'' rest
        let (parts, after) ← readParts fuel place more
        pure (.quoted text :: parts, after)
      else plain rest place
    | place, '"' =>
      if place.hasDoubleQuotes then do
        let (inner, more) ← readParts fuel .double rest
        let (parts, after) ← readParts fuel place more
        pure (.double inner :: parts, after)
      else plain rest place
    | place, '$' => do
      let (part, more) ← readDollar fuel place rest
      let (parts, after) ← readParts fuel place more
      pure (part :: parts, after)
    | place, '\x60' => do
      let (text, more) ← untilBackquote (!place.hasQuotes && place != .document) rest
      let (script, unread) ← readList fuel text
      if unread.isEmpty then
        let (parts, after) ← readParts fuel place more
        pure (.output script :: parts, after)
      else .error (unexpectedAt unread)
    | place, c =>
      if place = .word && isMeta c then .ok ([], c :: rest)
      else if Alias.isMark c then readParts fuel place rest
      else plain rest place

/-- The expansion after a dollar sign. -/
def readDollar : Nat → Place → Bytes → Except Stop (Part × Bytes)
  | 0, _, _ => .error .incomplete
  | fuel + 1, place, cs =>
    match cs with
    | '(' :: '(' :: rest => do
      let (parts, after) ← readParts fuel (.sum 0) rest
      pure (.arithmetic parts, after)
    | '(' :: rest => do
      let (script, after) ← readList fuel rest
      match after with
      | ')' :: after => pure (.output script, after)
      | _ => .error (unexpectedAt after)
    | '\x7b' :: '#' :: '\x7d' :: rest => .ok (.parameter ['#'], rest)
    | '\x7b' :: rest =>
      let counted := match rest with
        | '#' :: more => parameterAt? more
        | _ => none
      match counted, parameterAt? rest, rest with
      | some (name, '\x7d' :: after), _, _ => .ok (.length name, after)
      | none, _, '#' :: _ :: '\x7d' :: after => .ok (.adjusted [] .unknown false [], after)
      | _, some (name, '\x7d' :: after), _ => .ok (.parameter name, after)
      | _, some (name, after), _ => do
        let (how, emptyCounts, after) := adjustmentAt after
        let (word, after) ← readParts fuel (place.ofAdjustment how) after
        pure (.adjusted name how emptyCounts word, after)
      | _, none, _ => do
        let (word, after) ← readParts fuel (place.ofAdjustment .unknown) rest
        pure (.adjusted [] .unknown false word, after)
    | c :: rest =>
      match nameAt? cs with
      | some name => .ok (.parameter name, cs.drop name.length)
      | none => if isSpecial c then .ok (.parameter [c], rest) else .ok (.plain ['$'], cs)
    | [] => .ok (.plain ['$'], [])

/-- The commands up to the end of a list, which may have none. -/
def readList : Nat → Bytes → Except Stop (List Item × Bytes)
  | 0, _ => .error .incomplete
  | fuel + 1, cs =>
    let cs := commandStart aliases true cs
    if atListEnd cs then .ok ([], cs)
    else do
      let (item, rest, goesOn) ← readItem fuel cs
      if goesOn then
        let (items, after) ← readList fuel rest
        pure (item :: items, after)
      else
        match rest with
        | '\n' :: rest =>
          let (items, after) ← readList fuel rest
          pure (item :: items, after)
        | _ => pure ([item], rest)

/-- The commands up to the end of a list that has some. -/
def readBody : Nat → Bytes → Except Stop (List Item × Bytes)
  | 0, _ => .error .incomplete
  | fuel + 1, cs => do
    let (items, rest) ← readList fuel cs
    if items.isEmpty then .error (unexpectedAt rest) else pure (items, rest)

/-- One command of a list with what ends it; whether another may follow on the line. -/
def readItem : Nat → Bytes → Except Stop (Item × Bytes × Bool)
  | 0, _ => .error .incomplete
  | fuel + 1, cs => do
    let (first, rest) ← readPipeline fuel cs
    let (command, rest) ← readConnected fuel first rest
    match skip false rest with
    | ';' :: ';' :: rest => pure (.item command false, ';' :: ';' :: rest, false)
    | ';' :: rest => pure (.item command false, rest, true)
    | '&' :: rest => pure (.item command true, rest, true)
    | rest => pure (.item command false, rest, false)

/-- What is connected to a command. -/
def readConnected : Nat → Command → Bytes → Except Stop (Command × Bytes)
  | 0, _, _ => .error .incomplete
  | fuel + 1, first, cs =>
    match skip false cs with
    | '&' :: '&' :: rest => do
      let (second, rest) ← readPipeline fuel (commandStart aliases true rest)
      readConnected fuel (.connected first .andThen second) rest
    | '|' :: '|' :: rest => do
      let (second, rest) ← readPipeline fuel (commandStart aliases true rest)
      readConnected fuel (.connected first .orElse second) rest
    | rest => .ok (first, rest)

/-- A pipeline. -/
def readPipeline : Nat → Bytes → Except Stop (Command × Bytes)
  | 0, _ => .error .incomplete
  | fuel + 1, cs => do
    let (negated, cs) := match reservedAt? cs with
      | some (['!'], rest) => (true, commandStart aliases false rest)
      | _ => (false, cs)
    let (first, rest) ← readCommand fuel cs
    let (more, rest) ← readPiped fuel rest
    pure (if more.isEmpty && !negated then first else .pipeline negated (first :: more), rest)

/-- The commands that take the output of those before. -/
def readPiped : Nat → Bytes → Except Stop (List Command × Bytes)
  | 0, _ => .error .incomplete
  | fuel + 1, cs =>
    match skip false cs with
    | '|' :: '|' :: rest => .ok ([], '|' :: '|' :: rest)
    | '|' :: rest => do
      let (command, rest) ← readCommand fuel (commandStart aliases true rest)
      let (more, rest) ← readPiped fuel rest
      pure (command :: more, rest)
    | rest => .ok ([], rest)

/-- A command, compound or simple. -/
def readCommand : Nat → Bytes → Except Stop (Command × Bytes)
  | 0, _ => .error .incomplete
  | fuel + 1, cs => do
    let (command, rest) ← match cs, reservedAt? cs with
      | '(' :: rest, _ => do
        let (body, rest) ← readBody fuel rest
        match rest with
        | ')' :: rest => pure (Command.subshell body, rest)
        | _ => .error (unexpectedAt rest)
      | _, none => readSimple fuel (lastLine - cs.count '\n') [] [] [] cs
      | _, some (word, rest) =>
        match String.ofList word with
        | "\x7b" => do
          let (body, rest) ← readBody fuel rest
          pure (.group body, ← expectWord "\x7d" rest)
        | "if" => readBranch fuel rest
        | "while" => readLoop fuel false rest
        | "until" => readLoop fuel true rest
        | "for" => readEach fuel rest
        | "case" => do
          let (subject, rest) ← readWord fuel rest
          let (arms, rest) ← readArms fuel (← expectWord "in" rest)
          pure (.choice subject arms, rest)
        | _ => .error (.unexpected word)
    match command with
    | .simple .. => pure (command, rest)
    | .define .. => pure (command, rest)
    | _ => do
      let (redirections, rest) ← readRedirections fuel rest
      pure (if redirections.isEmpty then command else .redirected command redirections, rest)

/-- The rest of a branch. -/
def readBranch : Nat → Bytes → Except Stop (Command × Bytes)
  | 0, _ => .error .incomplete
  | fuel + 1, cs => do
    let (condition, rest) ← readBody fuel cs
    let (body, rest) ← readBody fuel (← expectWord "then" rest)
    match reservedAt? rest with
    | some (word, after) =>
      match String.ofList word with
      | "elif" => do
        let (otherwise, after) ← readBranch fuel after
        pure (.branch condition body [.item otherwise false], after)
      | "else" => do
        let (otherwise, after) ← readBody fuel after
        pure (.branch condition body otherwise, ← expectWord "fi" after)
      | "fi" => pure (.branch condition body [], after)
      | _ => .error (.unexpected word)
    | none => .error (unexpectedAt rest)

/-- The rest of a loop. -/
def readLoop : Nat → Bool → Bytes → Except Stop (Command × Bytes)
  | 0, _, _ => .error .incomplete
  | fuel + 1, untilDone, cs => do
    let (condition, rest) ← readBody fuel cs
    let (body, rest) ← readBody fuel (← expectWord "do" rest)
    pure (.loop untilDone condition body, ← expectWord "done" rest)

/-- The rest of a loop over words. -/
def readEach : Nat → Bytes → Except Stop (Command × Bytes)
  | 0, _ => .error .incomplete
  | fuel + 1, cs => do
    let cs := skip false cs
    let name := cs.takeWhile (!isMeta ·)
    if cs.isEmpty then .error .incomplete
    else if !isName name then .error .badLoopVariable
    else
      let rest := skip true (cs.drop name.length)
      let (words, rest) ← match rest with
        | ';' :: rest => pure (none, rest)
        | _ =>
          if rest.takeWhile (!isMeta ·) = bytesOf "in" then do
            let (words, rest) ← readWords fuel (rest.drop 2)
            match rest with
            | ';' :: rest => pure (some words, rest)
            | '\n' :: rest => pure (some words, rest)
            | _ => .error (unexpectedAt rest)
          else pure (none, rest)
      let (body, rest) ← readBody fuel (← expectWord "do" rest)
      pure (.each name words body, ← expectWord "done" rest)

/-- A word that must be there. -/
def readWord : Nat → Bytes → Except Stop (List Part × Bytes)
  | 0, _ => .error .incomplete
  | fuel + 1, cs => do
    let (word, rest) ← readParts fuel .word (skip false cs)
    if word.isEmpty then .error (unexpectedAt rest) else pure (word, rest)

/-- Words up to the end of a command. -/
def readWords : Nat → Bytes → Except Stop (List (List Part) × Bytes)
  | 0, _ => .error .incomplete
  | fuel + 1, cs =>
    match skip false cs with
    | [] => .error .incomplete
    | c :: rest =>
      if isMeta c then .ok ([], c :: rest)
      else do
        let (word, rest) ← readParts fuel .word (c :: rest)
        let (words, rest) ← readWords fuel rest
        pure (word :: words, rest)

/-- The arms of a choice. -/
def readArms : Nat → Bytes → Except Stop (List Arm × Bytes)
  | 0, _ => .error .incomplete
  | fuel + 1, cs =>
    let cs := skip true cs
    match reservedAt? cs with
    | some (['e', 's', 'a', 'c'], rest) => .ok ([], rest)
    | _ => do
      let cs := match cs with
        | '(' :: rest => skip false rest
        | _ => cs
      let (patterns, rest) ← readPatterns fuel cs
      let (body, rest) ← readList fuel rest
      let rest := match rest with
        | ';' :: ';' :: rest => rest
        | _ => rest
      let (arms, rest) ← readArms fuel rest
      pure (.arm patterns body :: arms, rest)

/-- The patterns of an arm with the bracket that ends them. -/
def readPatterns : Nat → Bytes → Except Stop (List (List Part) × Bytes)
  | 0, _ => .error .incomplete
  | fuel + 1, cs => do
    let (pattern, rest) ← readWord fuel cs
    match skip false rest with
    | '|' :: rest => do
      let (patterns, rest) ← readPatterns fuel rest
      pure (pattern :: patterns, rest)
    | ')' :: rest => pure ([pattern], rest)
    | rest => .error (unexpectedAt rest)

/-- A redirection whose operator is read. -/
def readRedirection : Nat → Nat → Bytes → Bytes → Except Stop (Redirection × Bytes)
  | 0, _, _, _ => .error .incomplete
  | fuel + 1, stream, operator, cs => do
    let cs := skip false cs
    let (word, rest) ← readWord fuel cs
    match String.ofList operator with
    | "<" => pure (.file stream .read word, rest)
    | ">" => pure (.file stream .write word, rest)
    | ">|" => pure (.file stream .overwrite word, rest)
    | ">>" => pure (.file stream .append word, rest)
    | "<>" => pure (.file stream .update word, rest)
    | "&" => pure (.duplicate stream word, rest)
    | kind => do
      let (mark, isExpanded) := endMark (cs.take (cs.length - rest.length))
      let (text, rest) ← takeDocument mark (kind = "<<-") (!isExpanded) rest
      if isExpanded then
        let (body, _) ← readParts fuel .document text
        pure (.text stream body, rest)
      else pure (.text stream [.quoted text], rest)

/-- The redirections after a compound command. -/
def readRedirections : Nat → Bytes → Except Stop (List Redirection × Bytes)
  | 0, _ => .error .incomplete
  | fuel + 1, cs =>
    let cs := skip false cs
    match redirectionAt? cs with
    | none => .ok ([], cs)
    | some (stream, operator, rest) => do
      let (redirection, rest) ← readRedirection fuel stream operator rest
      let (more, rest) ← readRedirections fuel rest
      pure (redirection :: more, rest)

/-- The rest of a simple command in a line, of which the assignments, words and redirections read so
far are given, the last ones first. -/
def readSimple : Nat → Nat → List (Bytes × List Part) → List (List Part) → List Redirection →
    Bytes → Except Stop (Command × Bytes)
  | 0, _, _, _, _, _ => .error .incomplete
  | fuel + 1, line, assignments, words, redirections, cs =>
    let isStart := words.isEmpty && !(assignments.isEmpty && redirections.isEmpty)
    let cs := if isStart then commandStart aliases false cs else nextWord aliases cs
    match redirectionAt? cs with
    | some (stream, operator, rest) => do
      let (redirection, rest) ← readRedirection fuel stream operator rest
      readSimple fuel line assignments words (redirection :: redirections) rest
    | none =>
      let name := (nameAt? cs).getD []
      match words, name, cs.drop name.length with
      | [], _ :: _, '=' :: rest => do
        let (value, rest) ← readParts fuel .word rest
        readSimple fuel line ((name, value) :: assignments) words redirections rest
      | _, _, _ =>
        match words, assignments, redirections, cs with
        | [word], [], [], '(' :: rest =>
          match skip false rest, word with
          | ')' :: rest, [.plain name] =>
            if isName name && !specialNames.contains (String.ofList name) then do
              let (body, rest) ← readCommand fuel (commandStart aliases true rest)
              pure (.define name body, rest)
            else .error .badFunctionName
          | ')' :: _, _ => .error .badFunctionName
          | rest, _ => .error (unexpectedAt rest)
        | _, _, _, c :: rest =>
          if isMeta c then
            if assignments.isEmpty && words.isEmpty && redirections.isEmpty then
              .error (unexpectedAt (c :: rest))
            else .ok (.simple line assignments.reverse words.reverse redirections.reverse, c :: rest)
          else do
            let (word, rest) ← readParts fuel .word (c :: rest)
            readSimple fuel line assignments (word :: words) redirections rest
        | _, _, _, [] =>
          if assignments.isEmpty && words.isEmpty && redirections.isEmpty then .error .incomplete
          else .ok (.simple line assignments.reverse words.reverse redirections.reverse, [])

end

end Commands

/-- The fuel that reading a text takes at most. -/
def readingFuel (aliases : List Alias) (cs : Bytes) : Nat :=
  8 * (cs.length + 2) * (aliases.length + 1) + 64 * (aliases.map (·.text.length)).foldl (· + ·) 0

/-- The commands up to the end of a line, where a line ends that is not in the midst of a
command. -/
def readLineItems (aliases : List Alias) (lastLine : Nat) :
    Nat → Bytes → Except Stop (List Item × Bytes)
  | 0, _ => .error .incomplete
  | fuel + 1, cs =>
    match commandStart aliases false cs with
    | [] => .ok ([], [])
    | '\n' :: rest => .ok ([], rest)
    | cs => do
      let (item, rest, goesOn) ← readItem aliases lastLine (readingFuel aliases cs) cs
      if goesOn then
        let (items, rest) ← readLineItems aliases lastLine fuel rest
        pure (item :: items, rest)
      else
        match rest with
        | [] => pure ([item], [])
        | '\n' :: rest => pure ([item], rest)
        | rest => .error (unexpectedAt rest)

/-- The commands of the first line of a text, as many lines as they take, and what follows. The
text begins in the line with the given number. -/
def readLine (aliases : List Alias) (line : Nat) (cs : Bytes) : Except Stop (List Item × Bytes) :=
  readLineItems aliases (line + cs.count '\n') (readingFuel aliases cs) cs

end ScriptTree.Shell
