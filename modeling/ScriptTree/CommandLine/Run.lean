import ScriptTree.CommandLine.Completion
import ScriptTree.CommandLine.Report
import ScriptTree.CommandLine.Request
import ScriptTree.Config.LogLevel
import ScriptTree.Config.Parser
import ScriptTree.Docs.Packaged
import ScriptTree.Text.Encode
import ScriptTree.Text.Terminal

/-!
Running the program: from the words of the command line to what is printed and the exit code.

Once it is clear which command is meant, diagnostics are set up. The command reads the settings, opens a
session with a parser service of its own, analyses the script, and gives the service back whatever came
of the analysis.
-/

namespace ScriptTree.CommandLine

/-- What a run finds: the environment, the files, and the text of the working directory. -/
structure Setting where
  environment : Environment
  files : FileStore
  home : String

/-- The parsers that a run makes use of. The services that parse scripts live in a state of type `ω`:
opening one with some settings, the answer of the open one to a script, and closing it. -/
structure Parsers (ω : Type) where
  opening : ParserConfig → ω → ω
  serve : String → ω → Except Analysis.Failure String × ω
  closing : ω → ω
  /-- The parser of YAML. -/
  yaml : String → Except Docs.YamlFault ValueGraph

/-- A fault that the program does not report but breaks off at. -/
inductive Breakdown where
  | analysis (f : Analysis.Failure)
  | logging (f : LogLevelFault)
  | config (e : ConfigError)
  /-- A word of the command line holds a null character. -/
  | nullCharacter
  | docs (path : Path) (f : Docs.LoadFault)
  | completion (f : CompletionFault)
  deriving Repr

/-- How a run ends. -/
inductive Ending where
  /-- Lines were handed over to be printed, one after the other. -/
  | printed (lines : List Points)
  | failed (stage : String) (message : Points)
  | refused (e : UsageError)
  | broken (b : Breakdown)
  /-- Nothing can be said to what is asked. -/
  | declined
  deriving Repr

namespace Ending

/-- A text as it is written: without terminal escapes. -/
def unescaped (ps : Points) : Points :=
  ps.mapRuns Text.dropEscapes

/-- A text as it is read from what was written: with single line breaks. -/
def plain (ps : Points) : Points :=
  (unescaped ps).mapRuns Text.joinLineEnds

/-- What keeps some lines from being printed, if anything does: the first that cannot be written. -/
def fault? (lines : List Points) : Option EncodeFault :=
  lines.findSome? fun line => (unescaped (line ++ "\n")).encodeFault?

/-- The exit code. Lines are printed up to the first that cannot be written, at which the run breaks
off. -/
def exitCode : Ending → Nat
  | .printed lines => if lines.all Points.isLegible then 0 else 1
  | .failed _ _ => 1
  | .refused _ => 2
  | .broken _ => 1
  | .declined => 1

/-- What is printed as the result. -/
def output : Ending → String
  | .printed lines => String.ofList (plain (textOf (lines.takeWhile Points.isLegible))).chars
  | _ => ""

/-- What is printed as an error. Escapes stand for what cannot be written. -/
def errorOutput : Ending → String
  | .failed stage message => (plain ("Error: " ++ stage ++ ": " ++ message ++ "\n")).escaped
  | .refused e => (plain (textOf (e.lines.map .ofString))).escaped
  | _ => ""

end Ending

/-- The documentation that the settings name: that of a file, or the packaged one. -/
def loadDocs (yaml : String → Except Docs.YamlFault ValueGraph) (files : FileStore)
    (config : ParserConfig) : Except Ending Docs.Catalog :=
  match config.docs with
  | none => .ok .packaged
  | some path =>
    match Docs.Catalog.empty.load yaml files path with
    | (.ok _, docs) => .ok docs
    | (.error fault, _) =>
      .error (if fault.isOfFile then .failed "docs" (fault.message path)
        else .broken (.docs path fault))

/-- The documentation for a task, if the task needs any. -/
def docsFor (yaml : String → Except Docs.YamlFault ValueGraph) (files : FileStore)
    (config : ParserConfig) : Task → Except Ending Docs.Catalog
  | .describe _ _ _ => loadDocs yaml files config
  | _ => .ok .empty

/-- What surrounds a session on the command line: nobody listens, and nothing is noted. -/
def surroundings {ω : Type} (parsers : Parsers ω) : Analysis.Surroundings Empty ω where
  notify listener := nomatch listener
  serve source w :=
    let (outcome, rest) := parsers.serve source w.rest
    (outcome, { w with rest })
  note _ w := w
  release w := { w with rest := parsers.closing w.rest }
  latency := 0

/-- Analyses a script in a session of its own, and prints what `report` makes of the analysis. -/
def withAnalysis {ω : Type} (setting : Setting) (parsers : Parsers ω) (config : ParserConfig)
    (path : Path) (report : Analysis.Snapshot → List Points) (rest : ω) : Ending × ω :=
  let env := surroundings parsers
  let world : Analysis.World Empty ω := ⟨.new true, parsers.opening config rest⟩
  let (outcome, world) := world.analyzeFile env setting.files setting.home path
  let ending := match outcome with
    | .ok _ => .printed (report world.snapshot)
    | .error f =>
      match f.stage? with
      | some e => .failed e.stage e.message
      | none => .broken (.analysis f)
  (ending, (world.close env).rest)

/-- What is printed about the innermost node at a place. -/
def reportAt (line column : Nat) (lines : Node → List Points) (s : Analysis.Snapshot) :
    List Points :=
  match s.forest.locate line column with
  | none => [nothingAt line column]
  | some t => lines t.value

/-- What is printed for a task. -/
def reportOf (docs : Docs.Catalog) : Task → Analysis.Snapshot → List Points
  | .analyze _ true _, s => [Json.writeBlock (jsonOf s)]
  | .analyze _ false limit, s => outlineOf limit s
  | .locate _ line column, s => reportAt line column (fun n => [n.label]) s
  | .describe _ line column, s => reportAt line column (descriptionOf docs) s

/-- Carries a task out with the given settings. -/
def runTask {ω : Type} (setting : Setting) (parsers : Parsers ω) (config : ParserConfig) (task : Task)
    (rest : ω) : Ending × ω :=
  match docsFor parsers.yaml setting.files config task with
  | .error ending => (ending, rest)
  | .ok docs => withAnalysis setting parsers config task.path (reportOf docs task) rest

/-- Answers a shell that completes a command line. -/
def complete (environment : Environment) (instruction : String) : Ending :=
  match Completion.answer environment instruction with
  | none => .declined
  | some (.ok text) => .printed [text]
  | some (.error fault) => .broken (.completion fault)

/-- Carries out what a command line asks for. -/
def answer {ω : Type} (setting : Setting) (parsers : Parsers ω) (request : Except UsageError Request)
    (rest : ω) : Ending × ω :=
  match request with
  | .error ⟨_, .badValue _ .nullCharacter⟩ => (.broken .nullCharacter, rest)
  | .error e => (.refused e, rest)
  | .ok (.help scope) => (.printed (scope.help.map .ofString), rest)
  | .ok .version => (.printed [s!"{programName}, version {version}"], rest)
  | .ok (.run task) =>
    match (ParserConfig.ofEnvironment setting.environment setting.files).1 with
    | .error (.docsBarred path bar) => (.broken (.config (.docsBarred path bar)), rest)
    | .error e => (.failed "config" e.message, rest)
    | .ok config => runTask setting parsers config task rest

/-- Carries out what the words of a command line ask for. Diagnostics are set up as soon as a command is
known, before its own words are looked at. -/
def runWords {ω : Type} (setting : Setting) (parsers : Parsers ω) (words : List String)
    (rest : ω) : Ending × ω :=
  let request := Request.ofWords setting.files words
  match reachesCommand request, setting.environment.logLevel with
  | true, .error fault => (.broken (.logging fault), rest)
  | _, _ => answer setting parsers request rest

/-- Runs the program with the words of a command line. A variable may ask for completion instead. -/
def run {ω : Type} (setting : Setting) (parsers : Parsers ω) (words : List String) (rest : ω) :
    Ending × ω :=
  match setting.environment.nonEmpty? Completion.variableName with
  | some instruction => (complete setting.environment instruction, rest)
  | none => runWords setting parsers words rest

end ScriptTree.CommandLine
