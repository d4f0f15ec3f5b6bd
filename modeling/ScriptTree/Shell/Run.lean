import ScriptTree.Shell.Expansion
import ScriptTree.Shell.Reader

/-!
Running commands of the shell. Everything takes fuel, so that also a loop without end stops.
-/

namespace ScriptTree.Shell

/-- What a shell is told on its command line: whether a word is the text of its commands, whether it
reads them, the flags that are set or taken away by letter or by name, and the other words. -/
structure Invocation where
  isText : Bool
  isInput : Bool
  letters : List (Bool × Char)
  names : List (Bool × Bytes)
  words : List Bytes

/-- Reads the words of a command line of a shell; with `pending` the next one is the name of a flag
that is set or taken away. -/
def Invocation.read (i : Invocation) (pending : Option Bool) : List Bytes → Invocation
  | [] => i
  | word :: words =>
    match pending, word with
    | some isSet, name => read { i with names := i.names ++ [(isSet, name)] } none words
    | none, ['-', '-'] => { i with words }
    | none, ['-'] => { i with words }
    | none, sign :: letters =>
      if sign = '-' || sign = '+' then
        let isSet : Bool := sign == '-'
        let flags := letters.filter fun c => !(['c', 's', 'o'].contains c)
        read
          { i with
            isText := i.isText || letters.contains 'c'
            isInput := i.isInput || letters.contains 's'
            letters := i.letters ++ flags.map (isSet, ·) }
          (if letters.contains 'o' then some isSet else none) words
      else { i with words := word :: words }
    | none, [] => { i with words := word :: words }

/-- Sets the flags that a command line asks for. -/
def Invocation.setFlags (i : Invocation) : Action Unit := do
  i.letters.forM fun flag => setLetter flag.1 flag.2
  i.names.forM fun flag => setNamed flag.1 flag.2

/-- The words of an input, as they are handed to a command. -/
def inputWords (cs : Bytes) : List Bytes :=
  ((pieces '\n' cs).flatMap fun line =>
    (pieces ' ' line).flatMap fun word => pieces '\t' word).filter (!·.isEmpty)

/-- Words in groups of a size. -/
def inGroups (size : Nat) : Nat → List Bytes → List (List Bytes)
  | 0, _ => []
  | fuel + 1, words =>
    if words.length ≤ size || size = 0 then [words]
    else words.take size :: inGroups size fuel (words.drop size)

/-- Does something in a copy of the shell and collects its output. -/
def collecting (action : Action Unit) : Action Bytes := do
  let s ← get
  let place := s.collected.length
  set { s with collected := s.collected ++ [[]] }
  apart (fun s => s.part.open_ 1 (.collected place)) action
  let t ← get
  set { t with collected := t.collected.take place }
  pure ((t.collected.getD place []).reverse.flatten)

mutual

/-- The glyphs of a part of a word. -/
def expandPart : Nat → Manner → Part → Action (List Glyph)
  | 0, _, _ => throw .exiting
  | fuel + 1, m, part =>
    match part with
    | .plain text => pure (text.map (if m.inDouble then .quoted else .literal))
    | .quoted text => pure (.quotes :: text.map .quoted)
    | .home user => homeGlyphs user
    | .double parts => do
      let inner ← expandParts fuel { m with inDouble := true } parts
      match parts with
      | [.parameter ['@']] => pure (if m.isParted then inner else .quotes :: inner)
      | _ => pure (.quotes :: inner)
    | .parameter name => parameterGlyphs m name
    | .length name => do
      let s ← get
      match s.parameter? name with
      | some value => pure (glyphsOf m.inDouble (numberText value.length))
      | none => do
        let _ ← parameterGlyphs m name
        pure (glyphsOf m.inDouble ['0'])
    | .adjusted name how emptyCounts word => expandAdjusted fuel m name how emptyCounts word
    | .arithmetic parts => do
      let text := bytesOfGlyphs (← expandParts fuel .text parts)
      pure (glyphsOf m.inDouble (numberText (← evaluate text)))
    | .output script => do
      let status := (← get).status
      let text ← collecting (asStatement (endingPart fuel (runItems fuel script)))
      modify fun s => { s with status, innerStatus := some s.status }
      let shown := text.filter (· != '\x00')
      pure (glyphsOf m.inDouble (shown.reverse.dropWhile (· = '\n')).reverse)

/-- The glyphs of the parts of a word. -/
def expandParts : Nat → Manner → List Part → Action (List Glyph)
  | 0, _, _ => throw .exiting
  | _ + 1, _, [] => pure []
  | fuel + 1, m, part :: parts => do
    let first ← expandPart fuel m part
    let rest ← expandParts fuel m parts
    pure (first ++ rest)

/-- The glyphs of a parameter whose value is adjusted. -/
def expandAdjusted : Nat → Manner → Bytes → Adjustment → Bool → List Part → Action (List Glyph)
  | 0, _, _, _, _, _ => throw .exiting
  | fuel + 1, m, name, how, emptyCounts, word => do
    let value := (← get).parameter? name
    let isUnset := match value with
      | none => true
      | some value => emptyCounts && value.isEmpty
    let word := if m.inDouble then word else withHomes false true word
    let other : Action (List Glyph) := do
      let gs ← expandParts fuel m word
      pure (gs.map fun
        | .literal c => .expanded c
        | g => g)
    let text : Action Bytes := do
      pure (bytesOfGlyphs (← expandParts fuel { m with isParted := false } word))
    let shown := parameterGlyphs m name
    let without (cut : Cut) : Action (List Glyph) := do
      match value with
      | none => shown
      | some value => do
        let s ← get
        let steps := patternOfGlyphs (← expandParts fuel .whole word)
        if s.keepsArguments m name then
          pure (argumentGlyphs m (cut.applyEach steps s.arguments))
        else pure (glyphsOf m.inDouble (cut.apply steps value))
    match how with
    | .orElse => if isUnset then other else shown
    | .ifSet => if isUnset then pure [] else other
    | .orAssign =>
      if isUnset then do
        let text ← text
        assignTo name text
        pure (glyphsOf m.inDouble text)
      else shown
    | .orFail =>
      if isUnset then do
        let text ← text
        let reason := if !text.isEmpty then String.ofList text
          else if emptyCounts then "parameter not set or null" else "parameter not set"
        collapse s!"{String.ofList name}: {reason}"
      else shown
    | .dropStart longest => without (.start longest)
    | .dropEnd longest => without (.ending longest)
    | .unknown => collapse "Bad substitution"

/-- The bytes of a word that stays whole. -/
def expandWhole : Nat → List Part → Action Bytes
  | 0, _ => throw .exiting
  | fuel + 1, word => do
    pure (bytesOfGlyphs (← expandParts fuel .whole (withHomes false true word)))

/-- The value of an assignment. -/
def expandValue : Nat → List Part → Action Bytes
  | 0, _ => throw .exiting
  | fuel + 1, word => do
    pure (bytesOfGlyphs (← expandParts fuel .whole (withHomes true true word)))

/-- The fields of some words; where they may be assignments those stay whole. -/
def expandWords : Nat → Bool → List (List Part) → Action (List Bytes)
  | 0, _, _ => throw .exiting
  | _ + 1, _, [] => pure []
  | fuel + 1, mayAssign, word :: words => do
    let fields ← match mayAssign, assignmentOf? word with
      | true, some (name, value) => do pure [name ++ (← expandValue fuel value)]
      | _, _ => do
        let gs ← expandParts fuel .fields (withHomes false true word)
        let s ← get
        pure ((fieldsOf s.separators gs).flatMap (fieldBytes s))
    let rest ← expandWords fuel mayAssign words
    pure (fields ++ rest)

/-- The name of a command and its words. -/
def expandCommand : Nat → List (List Part) → Action (List Bytes)
  | 0, _ => throw .exiting
  | _ + 1, [] => pure []
  | fuel + 1, word :: words => do
    let first ← expandWords fuel false [word]
    if first.isEmpty || first = [bytesOf "command"] then
      pure (first ++ (← expandCommand fuel words))
    else
      pure (first ++ (← expandWords fuel (assigningNames.contains (first.headD [])) words))

/-- Carries redirections out; whether all of them are. -/
def redirectAll : Nat → List Redirection → Action Bool
  | 0, _ => throw .exiting
  | _ + 1, [] => pure true
  | fuel + 1, redirection :: more => do
    let isDone ← match redirection with
      | .file stream mode word => do openFile stream mode (← expandWhole fuel word)
      | .duplicate stream word => do duplicateStream stream (← expandWhole fuel word)
      | .text stream body => do
        let outcome ← observing do
          let text := bytesOfGlyphs (← expandParts fuel .text body)
          modify (·.open_ stream (.source text))
        match outcome with
        | .ok _ => pure true
        | .error .failing => pure false
        | .error leave => throw leave
    if isDone then redirectAll fuel more else pure false

/-- Runs the commands of a list. -/
def runItems : Nat → List Item → Action Unit
  | 0, _ => throw .exiting
  | _ + 1, [] => pure ()
  | fuel + 1, .item command isJob :: items => do
    if isJob then startJob fuel command else runCommand fuel command
    takeSignals fuel
    runItems fuel items

/-- Does something as a part of the shell; what is to be done at its end is done then. -/
def endingPart : Nat → Action Unit → Action Unit
  | 0, _ => throw .exiting
  | fuel + 1, action => do
    match ← observing action with
    | .error (.killed signal) => throw (.killed signal)
    | .error .sleeping => throw .sleeping
    | _ => runEnd fuel

/-- Runs a command in a part of the shell of its own. -/
def runPart : Nat → (State → State) → Action Unit → Action Unit
  | 0, _, _ => throw .exiting
  | fuel + 1, change, action => apart (fun s => change s.part) (endingPart fuel action)

/-- Runs a command. -/
def runCommand : Nat → Command → Action Unit
  | 0, _ => throw .exiting
  | fuel + 1, command =>
    match command with
    | .simple line assignments words redirections => do
      modify fun s => { s with line }
      runSimple fuel assignments words redirections
      checkStatus
    | .pipeline negated commands =>
      if negated then do
        asCondition (runPipeline fuel commands)
        let s ← get
        setTruth (s.status != 0)
      else do
        runPipeline fuel commands
        checkStatus
    | .connected first connective second => do
      asCondition (runCommand fuel first)
      let succeeded := (← get).status == 0
      if succeeded == (connective == .andThen) then runCommand fuel second
    | .subshell body => do
      runPart fuel id (runItems fuel body)
      checkStatus
    | .group body => runItems fuel body
    | .branch condition body otherwise => do
      asCondition (runItems fuel condition)
      let chosen := if (← get).status == 0 then body else otherwise
      if chosen.isEmpty then setStatus 0 else runItems fuel chosen
    | .loop untilDone condition body => inLoop (runLoop fuel untilDone condition body 0)
    | .each name words body => do
      let values ← match words with
        | some words => expandWords fuel false words
        | none => pure (← get).arguments
      if values.isEmpty then setStatus 0 else inLoop (runEach fuel name values body)
    | .choice subject arms => do
      runArms fuel (← expandWhole fuel subject) arms
    | .define name body => do
      modify fun s => { s with functions := (name, body) :: s.functions.filter (·.1 != name) }
      setStatus 0
    | .redirected command redirections =>
      restoring (redirections.map Redirection.stream) do
        if ← redirectAll fuel redirections then runCommand fuel command
        else checkStatus

/-- Runs a loop; `last` is the status of the last round. -/
def runLoop : Nat → Bool → List Item → List Item → Nat → Action Unit
  | 0, _, _, _, _ => throw .exiting
  | fuel + 1, untilDone, condition, body, last => do
    match ← observing (asCondition (runItems fuel condition)) with
    | .ok _ =>
      if ((← get).status == 0) == untilDone then setStatus last
      else
        let outcome ← observing (runItems fuel body)
        let status := (← get).status
        afterBody outcome (runLoop fuel untilDone condition body status)
    | outcome => afterBody outcome (runLoop fuel untilDone condition body last)

/-- Runs a loop over words. -/
def runEach : Nat → Bytes → List Bytes → List Item → Action Unit
  | 0, _, _, _ => throw .exiting
  | _ + 1, _, [], _ => pure ()
  | fuel + 1, name, value :: values, body => do
    assignTo name value
    let outcome ← observing (runItems fuel body)
    afterBody outcome (runEach fuel name values body)

/-- Runs the first arm with a pattern that matches. -/
def runArms : Nat → Bytes → List Arm → Action Unit
  | 0, _, _ => throw .exiting
  | _ + 1, _, [] => setStatus 0
  | fuel + 1, text, .arm patterns body :: arms => do
    if ← matchesAny fuel text patterns then
      if body.isEmpty then setStatus 0 else runItems fuel body
    else runArms fuel text arms

/-- Whether one of some patterns matches. -/
def matchesAny : Nat → Bytes → List (List Part) → Action Bool
  | 0, _, _ => throw .exiting
  | _ + 1, _, [] => pure false
  | fuel + 1, text, pattern :: patterns => do
    let steps := patternOfGlyphs (← expandParts fuel .whole (withHomes false true pattern))
    if PatternStep.matchesAll steps text then pure true else matchesAny fuel text patterns

/-- Runs commands of which each reads what the one before it writes. -/
def runPipeline : Nat → List Command → Action Unit
  | 0, _ => throw .exiting
  | _ + 1, [] => pure ()
  | fuel + 1, [command] => runCommand fuel command
  | fuel + 1, command :: commands => do
    let text ← collecting (endingPart fuel (runCommand fuel command))
    runPart fuel (·.open_ 0 (.source text)) (runPipeline fuel commands)

/-- Starts a command in the background: it goes on until it waits. What it does after that comes too
late, unless it is waited for; a command that has done nothing yet is then run as a whole. -/
def startJob : Nat → Command → Action Unit
  | 0, _ => throw .exiting
  | fuel + 1, command => do
    let s ← get
    let outcome ← observing (runPart fuel
      (fun s => { s.open_ 0 (.source []) with isInBackground := true })
      (asStatement (runCommand fuel command)))
    let t ← get
    let sizes (s : State) : List Nat :=
      [s.output.length, s.errors.length, s.files.entries.length] ++ s.collected.map List.length
    let pid := s.pid + 1 + s.jobs.length
    match outcome with
    | .error .sleeping =>
      if sizes s = sizes t then set { s with jobs := s.jobs ++ [Job.mk pid none command] }
      else set { t with jobs := t.jobs ++ [Job.mk pid (some 0) command] }
    | _ => set { t with jobs := t.jobs ++ [Job.mk pid (some t.status) command] }
    setStatus 0

/-- Waits for a job; gives its status. -/
def awaitJob : Nat → Job → Action Nat
  | 0, _ => throw .exiting
  | fuel + 1, job => do
    match job.status with
    | some status => pure status
    | none => do
      runPart fuel (·.open_ 0 (.source [])) (runCommand fuel job.command)
      let status := (← get).status
      modify fun s => { s with
        jobs := s.jobs.map fun (j : Job) =>
          if j.pid = job.pid then { j with status := some status } else j }
      pure status

/-- Waits for some jobs. -/
def awaitJobs : Nat → List Job → Action Unit
  | 0, _ => throw .exiting
  | _ + 1, [] => pure ()
  | fuel + 1, job :: jobs => do
    let _ ← awaitJob fuel job
    awaitJobs fuel jobs

/-- Waits for all jobs, or for those whose process ids are given. -/
def runWait : Nat → List Bytes → Action Unit
  | 0, _ => throw .exiting
  | fuel + 1, words => do
    match words with
    | [] => do
      awaitJobs fuel (← get).jobs
      setStatus 0
    | word :: more => do
      let pid ← numberIn word
      match (← get).jobs.find? (·.pid = pid) with
      | some job => setStatus (← awaitJob fuel job)
      | none => setStatus State.notFound
      if !more.isEmpty then runWait fuel more

/-- Runs a simple command. -/
def runSimple : Nat → List (Bytes × List Part) → List (List Part) → List Redirection → Action Unit
  | 0, _, _, _ => throw .exiting
  | fuel + 1, assignments, words, redirections => do
    modify fun s => { s with innerStatus := none }
    let words ← expandCommand fuel words
    let before ← get
    let isSpecial := words.head?.any fun name => specialNames.contains (String.ofList name)
    let act : Action Unit := do
      if ← redirectAll fuel redirections then
        match words with
        | [] => do
          assignEach fuel false before.streams assignments [] []
          modify fun s => { s with status := s.innerStatus.getD 0 }
        | name :: arguments =>
          if isSpecial then do
            assignEach fuel false before.streams assignments [] words
            runNamed fuel true (String.ofList name) arguments
          else do
            let old := assignments.map fun v => (v.1, before.bindings.lookup v.1)
            try
              assignEach fuel true before.streams assignments [] words
              runNamed fuel true (String.ofList name) arguments
            finally modify (·.restore old)
      else if isSpecial then throw .failing
    if words = [bytesOf "exec"] then act
    else restoring (redirections.map Redirection.stream) act

/-- Carries assignments out one after the other. If commands are to be shown, those carried out are,
with the words of the command after them, on the streams as they were. `exports` tells whether the
variables are exported. -/
def assignEach : Nat → Bool → List (Nat × Nat) → List (Bytes × List Part) → List Bytes →
    List Bytes → Action Unit
  | 0, _, _, _, _, _ => throw .exiting
  | _ + 1, _, streams, [], shown, words => do
    let s ← get
    if s.has 'x' then
      let text := (s.value? (bytesOf "PS4")).getD [] ++
        List.intercalate [' '] (shown ++ words) ++ ['\n']
      modify fun s => { { s with streams }.write 2 text with streams := s.streams }
  | fuel + 1, exports, streams, (name, word) :: more, shown, words => do
    let value ← expandValue fuel word
    checkChange name
    modify fun s => if exports then s.put name ⟨value, true⟩ else s.assign name value
    assignEach fuel exports streams more (shown ++ [name ++ '=' :: value]) words

/-- Runs the command with a name: one of the shell, a function, or a program. What follows `command`
is no function, and its errors end nothing else. -/
def runNamed : Nat → Bool → String → List Bytes → Action Unit
  | 0, _, _, _ => throw .exiting
  | fuel + 1, isPlain, name, arguments => do
    let s ← get
    let isSpecial := specialNames.contains name
    match s.functions.lookup (bytesOf name), isPlain && !isSpecial with
    | some body, true => callFunction fuel body arguments
    | _, _ =>
      match runShellCommand? fuel name arguments with
      | some action =>
        if isSpecial && isPlain then asCommand name action
        else containing (asCommand name action)
      | none => runProgram fuel name arguments

/-- What the command of the shell with a name does. -/
def runShellCommand? : Nat → String → List Bytes → Option (Action Unit)
  | 0, _, _ => none
  | fuel + 1, name, arguments =>
    match name with
    | "." => some (runFile fuel arguments)
    | "eval" => some do
      runText fuel (List.intercalate [' '] arguments)
    | "exec" => some do
      match arguments with
      | [] => setStatus 0
      | name :: arguments => do
        runProgram fuel (String.ofList name) arguments
        modify fun s => { s with traps := [] }
        throw .exiting
    | "command" => some do
      let (letters, words) ← takeLetters ['p', 'v', 'V'] arguments
      match words with
      | [] => setStatus 0
      | name :: arguments =>
        if letters.contains 'v' then tellNames false [name]
        else if letters.contains 'V' then tellNames true [name]
        else do
          modify fun s => { s with command := none }
          runNamed fuel false (String.ofList name) arguments
    | "type" => some (tellNames true arguments)
    | "hash" => some do
      let (_, names) ← takeLetters ['r'] arguments
      setStatus 0
      names.forM fun word => do
        if ((← get).nameText? false word).isNone then
          complain 1 s!"{String.ofList word}: not found"
    | "trap" => some (setTraps arguments)
    | "kill" => some (runKill fuel arguments)
    | "wait" => some do
      let (_, words) ← takeLetters [] arguments
      runWait fuel words
    | _ => builtin? name arguments

/-- Runs the program with a name. -/
def runProgram : Nat → String → List Bytes → Action Unit
  | 0, _, _ => throw .exiting
  | fuel + 1, name, arguments => do
    let s ← get
    let word := bytesOf name
    if word.contains '/' then
      match s.find word with
      | .ok (.file _) =>
        let base := String.ofList (baseName word [])
        let isInstalled := State.programHomes.any fun home => (home ++ ['/']).isPrefixOf word
        if isInstalled && isProgram base then runInstalled fuel base arguments
        else if s.isExecutable word then runShell fuel (word :: arguments)
        else complain State.notProgram s!"{name}: Permission denied"
      | .ok _ => complain State.notProgram s!"{name}: Permission denied"
      | .error fault =>
        let base := String.ofList (baseName word [])
        let isInstalled := State.programHomes.any fun home => home ++ '/' :: bytesOf base = word
        if isInstalled && isProgram base then runInstalled fuel base arguments
        else if fault = .notDirectory then
          complain State.notProgram s!"{name}: Not a directory"
        else complain State.notFound s!"{name}: not found"
    else if word.isEmpty then complain State.notFound s!"{name}: Permission denied"
    else if s.findsPrograms && isProgram name then runInstalled fuel name arguments
    else complain State.notFound s!"{name}: not found"

/-- Runs a program that is there. -/
def runInstalled : Nat → String → List Bytes → Action Unit
  | 0, _, _ => throw .exiting
  | fuel + 1, name, arguments => do
    let s ← get
    match name with
    | "sh" => runShell fuel arguments
    | "env" => runEnvironment fuel arguments
    | "xargs" => runForInput fuel arguments
    | "which" => do
      let found := arguments.filterMap s.programPath?
      emit (ofLines found)
      setTruth (found.length = arguments.length)
    | "kill" => runKill fuel arguments
    | _ =>
      match program? name arguments with
      | some action => action
      | none =>
        match runUtility? ⟨name, arguments, s.input, s.readFile⟩ with
        | some result => finish result
        | none => (builtin? name arguments).getD (pure ())

/-- Runs a program with other variables, or tells them. -/
def runEnvironment : Nat → List Bytes → Action Unit
  | 0, _ => throw .exiting
  | fuel + 1, arguments => do
    let isEmpty := arguments.any fun w => w = ['-', 'i'] || w = ['-']
    let removed := (arguments.zip (arguments.drop 1)).filterMap fun w =>
      if w.1 = ['-', 'u'] then some w.2 else none
    let rest := (arguments.dropWhile fun w => w.head? = some '-' || removed.contains w)
    let (assigned, words) := rest.span (·.contains '=')
    let change (s : State) : State :=
      let kept := s.bindings.filter fun v => !isEmpty && v.2.isExported && !removed.contains v.1
      assigned.foldl (fun s word => s.put (parted word).1 ⟨(parted word).2.getD [], true⟩)
        { s with bindings := kept }
    match words with
    | [] => apart change (printVariables [])
    | name :: arguments => do
      let program := String.ofList name
      let s ← get
      if (s.programPath? name).isSome then apart change (runProgram fuel program arguments)
      else remark State.notFound s!"env: '{program}': No such file or directory"

/-- Runs a program with the words of the input. -/
def runForInput : Nat → List Bytes → Action Unit
  | 0, _ => throw .exiting
  | fuel + 1, arguments => do
    let (size, words) : Nat × List Bytes := match arguments with
      | ['-', 'n'] :: count :: words => (decimal count, words)
      | ('-' :: 'n' :: count) :: words => (decimal count, words)
      | words => (0, words)
    let s ← get
    let given := inputWords s.input
    set (s.passInput s.input.length)
    let command := if words.isEmpty then [bytesOf "echo"] else words
    runGroups fuel command (inGroups size (given.length + 1) given)

/-- Runs a command with each of some groups of further words. -/
def runGroups : Nat → List Bytes → List (List Bytes) → Action Unit
  | 0, _, _ => throw .exiting
  | _ + 1, _, [] => pure ()
  | fuel + 1, command, group :: groups => do
    runProgram fuel (String.ofList (command.headD [])) (command.drop 1 ++ group)
    runGroups fuel command groups

/-- Calls a function. -/
def callFunction : Nat → Command → List Bytes → Action Unit
  | 0, _, _ => throw .exiting
  | fuel + 1, body, arguments => do
    let before ← get
    if State.deepest ≤ before.depth then
      collapse s!"Maximum function recursion depth ({State.deepest}) reached"
    set { before with
      arguments, options := ⟨1, none⟩, isInFunction := true, depth := before.depth + 1, locals := []
      localFlags := none, loops := 0 }
    let outcome ← observing (runCommand fuel body)
    modify fun s =>
      let t := s.restore s.locals
      { t with
        arguments := before.arguments, options := before.options
        isInFunction := before.isInFunction, depth := before.depth, locals := before.locals
        flags := t.localFlags.getD t.flags, localFlags := before.localFlags
        loops := before.loops }
    match outcome with
    | .error .returning => pure ()
    | .error leave => throw leave
    | .ok _ => pure ()

/-- Runs the commands of a text, line by line, so that each line counts for those after it. The
lines are counted from the first one. A text without commands succeeds. -/
def runText : Nat → Bytes → Action Unit
  | 0, _ => throw .exiting
  | fuel + 1, text => do
    let (reading, line) := ((← get).reading, (← get).line)
    modify fun s => { s with reading := 1, line := 1 }
    let outcome ← observing (runLines fuel false text)
    modify fun s => { s with reading, line }
    match outcome with
    | .error leave => throw leave
    | .ok _ => pure ()

/-- Runs the commands of the lines of a text; `hasRun` tells whether some have run before. -/
def runLines : Nat → Bool → Bytes → Action Unit
  | 0, _, _ => throw .exiting
  | fuel + 1, hasRun, text => do
    if text.isEmpty then
      if !hasRun then setStatus 0
    else
      let s ← get
      match readLine s.aliases s.reading text with
      | .ok (items, rest) => do
        let lines := text.count '\n' - rest.count '\n'
        runItems fuel items
        modify fun s => { s with reading := s.reading + lines }
        runLines fuel (hasRun || !items.isEmpty) rest
      | .error stop => do
        modify fun s => { s with line := s.reading }
        collapse stop.message

/-- Runs the commands of a file. -/
def runFile : Nat → List Bytes → Action Unit
  | 0, _ => throw .exiting
  | fuel + 1, words => do
    let (_, words) ← takeLetters [] words
    let file := words.headD []
    let name := String.ofList file
    if words.isEmpty then setStatus 0
    else if !file.contains '/' then collapse s!"{name}: not found"
    else
      match (← get).readFile file with
      | .ok text => do
        match ← observing (asStatement (asCommand name (runText fuel text))) with
        | .error .returning => pure ()
        | .error leave => throw leave
        | .ok _ => pure ()
      | .error _ => collapse s!"cannot open {name}: No such file"

/-- Runs a shell of its own. -/
def runShell : Nat → List Bytes → Action Unit
  | 0, _ => throw .exiting
  | fuel + 1, words => do
    let change (s : State) : State :=
      { s with
        name := "sh", pid := s.pid + 1000, isPart := false, arguments := [], functions := []
        aliases := [], constants := [], exports := [], flags := [], jobs := []
        traps := s.traps.filter (·.2.isEmpty), options := ⟨1, none⟩
        isInFunction := false, depth := 0, locals := [], localFlags := none, loops := 0, line := 0
        reading := 1
        command := none, status := 0, isCondition := false
        bindings := (s.bindings.filter (·.2.isExported)) ++
          (State.firstVariables s.home).filter fun v =>
            !(s.bindings.any fun w => w.1 == v.1 && w.2.isExported) }
    apart change do
      let invocation := Invocation.read ⟨false, false, [], [], []⟩ none words
      invocation.setFlags
      let run (name : Option Bytes) (arguments : List Bytes) (text : Bytes) : Action Unit := do
        modify fun s =>
          { s with arguments, name := (name.map String.ofList).getD s.name }
        endingPart fuel (runText fuel text)
      match invocation.isText, invocation.isInput, invocation.words with
      | true, _, text :: name :: arguments => run (some name) arguments text
      | true, _, [text] => run none [] text
      | true, _, [] => collapse "-c requires an argument"
      | _, true, arguments => do
        modify (·.setFlag true 's')
        run none arguments (← get).input
      | _, _, [] => do
        modify (·.setFlag true 's')
        run none [] (← get).input
      | _, _, file :: arguments =>
        match (← get).readFile file with
        | .ok text => run (some file) arguments text
        | .error _ => complain State.faulty s!"cannot open {String.ofList file}: No such file"

/-- Sends a signal, or tells the names of signals. -/
def runKill : Nat → List Bytes → Action Unit
  | 0, _ => throw .exiting
  | fuel + 1, arguments => do
    let usage := "Usage: kill [-s sigspec | -signum | -sigspec] [pid | job]... or\n" ++
      "kill -l [exitstatus]"
    let option := String.ofList ((arguments.headD []).take 2)
    match arguments with
    | [['-', 'l']] =>
      emitText (ofLines ((signalNames.mapIdx fun i name => if i = 0 then "0" else name).map bytesOf))
    | ['-', 'l'] :: word :: _ => do
      let n ← numberIn word
      emitText (bytesOf (signalName (if signalStatus < n then n - signalStatus else n) ++ "\n"))
    | _ =>
      let (signal, targets) : Option Nat × List Bytes := match arguments with
        | ['-', 's'] :: name :: targets => (signalOf? 1 name, targets)
        | ('-' :: c :: name) :: targets => (signalOf? 1 (c :: name), targets)
        | targets => (some terminate, targets)
      match signal with
      | none => collapse s!"Illegal option {option}"
      | some signal =>
        if targets.isEmpty then collapse usage
        else
          setStatus 0
          sendSignals fuel signal targets

/-- Sends a signal to processes. -/
def sendSignals : Nat → Nat → List Bytes → Action Unit
  | 0, _, _ => throw .exiting
  | _ + 1, _, [] => pure ()
  | fuel + 1, signal, word :: words => do
    let pid ← numberIn word
    let s ← get
    match s.jobs.find? (·.pid = pid) with
    | some job =>
      if job.status.isNone then
        set { s with
          jobs := s.jobs.map fun (j : Job) =>
            if j.pid = pid then { j with status := some (signalStatus + signal) } else j }
      else complain 1 "No such process\n"
    | none =>
      if pid = s.pid && !s.isPart then receiveSignal fuel signal
      else if pid = s.pid || pid + 1000 = s.pid then
        set { s with signals := s.signals ++ [(pid, signal)] }
      else complain 1 "No such process\n"
    sendSignals fuel signal words

/-- Takes the signals that have come from parts of the shell. -/
def takeSignals : Nat → Action Unit
  | 0 => throw .exiting
  | fuel + 1 => do
    let s ← get
    let (own, others) := s.signals.partition (·.1 = s.pid)
    if s.isPart || own.isEmpty then pure ()
    else
      set { s with signals := others }
      receiveEach fuel (own.map (·.2))

/-- Gets signals one after the other. -/
def receiveEach : Nat → List Nat → Action Unit
  | 0, _ => throw .exiting
  | _ + 1, [] => pure ()
  | fuel + 1, signal :: signals => do
    receiveSignal fuel signal
    receiveEach fuel signals

/-- The shell gets a signal. The status stays as it was. -/
def receiveSignal : Nat → Nat → Action Unit
  | 0, _ => throw .exiting
  | fuel + 1, signal => do
    let s ← get
    if signal = 0 then pure ()
    else
      match s.traps.lookup signal, signal == killSignal with
      | some action, false => do
        asStatement (runText fuel action)
        setStatus s.status
      | _, _ => if harmlessSignals.contains signal then pure () else throw (.killed signal)

/-- Does what is to be done at the end of the shell. The status stays as it was, unless the shell is
left with another one. -/
def runEnd : Nat → Action Unit
  | 0 => throw .exiting
  | fuel + 1 => do
    let s ← get
    match s.traps.lookup 0 with
    | none => pure ()
    | some action => do
      set { s with traps := s.traps.filter (·.1 != 0) }
      match ← observing (asStatement (runText fuel action)) with
      | .error .exiting => pure ()
      | .error (.killed signal) => throw (.killed signal)
      | _ => setStatus s.status

end

/-- The number of steps after which a command is stopped. -/
def stepLimit : Nat := 1000000

/-- Runs commands. -/
def run (items : List Item) : Action Unit :=
  runItems stepLimit items

/-- Does what is to be done at the end of a shell. -/
def endShell : Action Unit :=
  runEnd stepLimit

end ScriptTree.Shell
