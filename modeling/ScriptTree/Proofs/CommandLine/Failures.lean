/-
How runs fail. A run of a command meets at most one trouble, and what comes of it is told by the trouble
alone (`trouble?`). It is reported on one line unless a text that is taken over into the report, as the
message of the parser, has a line break, or the trouble is one that is not reported (`run_reports`).
Whatever happens, a parser service that was opened is closed.
-/
import ScriptTree.Proofs.Analysis.Payload
import ScriptTree.Proofs.Analysis.Session
import ScriptTree.Proofs.CommandLine.Export
import ScriptTree.Proofs.Config.Parser
import ScriptTree.Proofs.Text.Line

namespace ScriptTree

open Text (IsLine OneLine oneLine_append oneLine_ofList oneLine_stringAppend oneLine_toString quoted_oneLine toString_nat_oneLine)

/-! ## Wordings on one line -/

theorem FileFault.message_oneLine {quotedPath : String} (h : OneLine quotedPath) (fault : FileFault) :
    OneLine (fault.message quotedPath) := by
  have hworded {words : List Char} (hwords : '\n' ∉ words) :
      OneLine (Points.ofString (toString (String.ofList words) ++ toString quotedPath)) :=
    (oneLine_stringAppend _ _).2 ⟨oneLine_ofList.2 hwords, h⟩
  cases fault with
  | nullCharacter => exact oneLine_ofList.2 (by decide)
  | _ =>
    unfold message
    exact hworded (by decide)

theorem Text.Utf8.DecodeError.message_oneLine (e : Utf8.DecodeError) : OneLine e.message := by
  have hdigit : ∀ n < 16, '\n' ∉ Nat.toDigits 16 n := by decide
  have hbyte : OneLine (String.ofList (Nat.toDigits 16 (e.byte.toNat / 16) ++ Nat.toDigits 16 (e.byte.toNat % 16))) := by
    rw [oneLine_ofList, List.mem_append, not_or]
    exact ⟨hdigit _ (Nat.div_lt_of_lt_mul e.byte.toNat_lt), hdigit _ (Nat.mod_lt _ (by decide))⟩
  have hreason : OneLine e.why.reason := by
    cases e.why <;> exact oneLine_ofList.2 (by decide)
  have hplace {p : Prop} [Decidable p] {s t : String} (hs : OneLine s) (ht : OneLine t) :
      OneLine (Points.ofString (if p then s else t)) := by
    split
    · exact hs
    · exact ht
  unfold message
  simp only [oneLine_stringAppend, oneLine_toString, hreason, and_true]
  refine ⟨⟨oneLine_ofList.2 (by decide), hplace ?_ ?_⟩, oneLine_ofList.2 (by decide)⟩
  · simp only [oneLine_stringAppend, oneLine_toString, toString_nat_oneLine, hbyte, and_true]
    exact ⟨oneLine_ofList.2 (by decide), oneLine_ofList.2 (by decide)⟩
  · simp only [oneLine_stringAppend, oneLine_toString, toString_nat_oneLine, and_true]
    exact ⟨oneLine_ofList.2 (by decide), oneLine_ofList.2 (by decide)⟩

theorem DocumentFault.message_oneLine (p : Path) (fault : DocumentFault) : OneLine (fault.message p) := by
  cases fault with
  | file fault => exact fault.message_oneLine (quoted_oneLine p.text)
  | text e => exact e.message_oneLine

theorem Json.Fault.message_oneLine (fault : Fault) : OneLine fault.message := by
  cases fault <;> exact oneLine_ofList.2 (by decide)

theorem Json.ReadError.message_oneLine (cs : List Char) (fault : Fault) (position : Nat) :
    OneLine (message cs (.syntaxFault fault position)) := by
  unfold message
  simp only [oneLine_stringAppend, oneLine_toString, toString_nat_oneLine, fault.message_oneLine, and_true, true_and]
  exact ⟨⟨⟨oneLine_ofList.2 (by decide), oneLine_ofList.2 (by decide)⟩, oneLine_ofList.2 (by decide)⟩,
    oneLine_ofList.2 (by decide)⟩

theorem Scalar.typeName_oneLine (s : Scalar) : OneLine s.typeName := by
  cases s <;> exact oneLine_ofList.2 (by decide)

theorem Json.Value.typeName_oneLine (v : Value) : OneLine v.typeName := by
  cases v with
  | list _ => exact oneLine_ofList.2 (by decide)
  | object _ => exact oneLine_ofList.2 (by decide)
  | _ => exact Scalar.typeName_oneLine _

theorem ValueGraph.typeName_oneLine (g : ValueGraph) (place : Nat) : OneLine (g.typeName place) := by
  unfold typeName
  cases g.part place with
  | scalar s => exact s.typeName_oneLine
  | _ => exact oneLine_ofList.2 (by decide)

/-- All that the settings are refused for is quoted, but for the name of the documentation file. -/
theorem ConfigError.message_oneLine_iff (fault : ConfigError) :
    OneLine fault.message ↔ ∀ given, fault = .docsMissing given → OneLine given := by
  unfold message
  cases fault with
  | unknownFlavor given =>
    simp only [oneLine_stringAppend, oneLine_toString, quoted_oneLine, and_true]
    exact iff_of_true ⟨⟨oneLine_ofList.2 (by decide), by decide⟩, oneLine_ofList.2 (by decide)⟩ (by rintro _ ⟨⟩)
  | timeoutNotNumber given =>
    simp only [oneLine_stringAppend, oneLine_toString, quoted_oneLine, and_true]
    exact iff_of_true (oneLine_ofList.2 (by decide)) (by rintro _ ⟨⟩)
  | timeoutNegative given =>
    simp only [oneLine_stringAppend, oneLine_toString, quoted_oneLine, and_true]
    exact iff_of_true (oneLine_ofList.2 (by decide)) (by rintro _ ⟨⟩)
  | unknownHome => exact iff_of_true (oneLine_ofList.2 (by decide)) (by rintro _ ⟨⟩)
  | docsMissing given =>
    simp only [oneLine_stringAppend, oneLine_toString, docsMissing.injEq, forall_eq']
    exact and_iff_right (oneLine_ofList.2 (by decide))
  | docsBarred path bar => exact iff_of_true (bar.message_oneLine (quoted_oneLine _)) (by rintro _ ⟨⟩)

namespace Docs

/-- Whether the texts that a fault holds have no line break. -/
def LoadFault.IsWorded : LoadFault → Prop
  | .badJson why => OneLine why
  | .notList typeName => OneLine typeName
  | _ => True

theorem Catalog.decode_isWorded {yaml : String → Except YamlFault ValueGraph} {p : Path} {text : String}
    {fault : LoadFault} (h : decode yaml p text = .error fault) : fault.IsWorded := by
  unfold decode at h
  split at h
  · split at h <;> cases h <;> trivial
  · split at h
    · cases h
    · cases h
      trivial
    · rename_i e hlong _
      cases h
      cases e with
      | syntaxFault fault position => exact Json.ReadError.message_oneLine _ fault position
      | integerTooLong digits => exact absurd rfl (hlong digits)

theorem Catalog.addAll_isWorded {c : Catalog} {g : ValueGraph} {places : List Nat} {fault : LoadFault}
    (h : (c.addAll g places).1 = .error fault) : fault.IsWorded := by
  induction places generalizing c with
  | nil => cases h
  | cons place places ih =>
    unfold addAll at h
    split at h
    · exact ih h
    · split at h
      · exact ih h
      · cases h
        trivial

theorem Catalog.load_isWorded {yaml : String → Except YamlFault ValueGraph} {c : Catalog} {files : FileStore}
    {p : Path} {fault : LoadFault} (h : (c.load yaml files p).1 = .error fault) : fault.IsWorded := by
  unfold load loadBy at h
  split at h
  · cases h
    trivial
  · split at h
    · split at h
      · rename_i fault' hlist
        cases h
        unfold readListBy at hlist
        split at hlist
        · cases hlist
          trivial
        · split at hlist
          · rename_i hdecode
            cases hlist
            exact decode_isWorded hdecode
          · split at hlist
            · cases hlist
            · cases hlist
              exact ValueGraph.typeName_oneLine _ _
      · exact addAll_isWorded h
    · cases h

/-- A fault of a documentation file is worded with the name of the file, and with what the parser of YAML
says. -/
theorem LoadFault.message_oneLine_iff {fault : LoadFault} (hworded : fault.IsWorded)
    (hfile : fault.isOfFile = true) (p : Path) :
    OneLine (fault.message p) ↔ OneLine p.text ∧ ∀ why, fault = .badYaml why → OneLine why := by
  have hparts {before between : List Char} {after : String} {q : Prop} (hbefore : '\n' ∉ before)
      (hbetween : '\n' ∉ between) (hafter : OneLine after ↔ q) :
      OneLine (Points.ofString (toString (String.ofList before) ++ toString p.text ++ toString (String.ofList between) ++
        toString after)) ↔ OneLine p.text ∧ q := by
    simp only [oneLine_stringAppend, oneLine_toString, oneLine_ofList.2 hbefore, oneLine_ofList.2 hbetween, hafter,
      true_and, and_true]
  unfold message
  cases fault with
  | unreadable fault =>
    exact hparts (by decide) (by decide) (iff_of_true (fault.message_oneLine p) (by rintro _ ⟨⟩))
  | badJson why => exact hparts (by decide) (by decide) (iff_of_true hworded (by rintro _ ⟨⟩))
  | badYaml why =>
    refine hparts (by decide) (by decide) ?_
    simp only [badYaml.injEq, forall_eq']
  | notList typeName => exact hparts (by decide) (by decide) (iff_of_true hworded (by rintro _ ⟨⟩))
  | integerTooLong digits => cases hfile
  | badValue kind why => cases hfile
  | unwritable => cases hfile
  | barred bar => cases hfile

end Docs

namespace CommandLine

/-! ## The script of a command -/

theorem bind_eq_ok {ε α β : Type} {x : Except ε α} {f : α → Except ε β} {b : β} (h : x >>= f = .ok b) :
    ∃ a, x = .ok a ∧ f a = .ok b := by
  cases x with
  | error e => cases h
  | ok a => exact ⟨a, rfl, h⟩

theorem fileOf_found {files : FileStore} {word : String} {path : Path} (h : fileOf files word = .ok path) :
    ∃ e, files.find path = .ok e := by
  unfold fileOf at h
  dsimp only at h
  split at h
  · cases h
  · cases h
  · rename_i e hfind
    split at h
    · cases h
    · split at h
      · cases h
      · split at h
        · cases h
        · split at h
          · cases h
          · cases h
            exact ⟨e, hfind⟩

theorem operand_found {c : Command} {words : List String} {files : FileStore} {path : Path}
    (h : operand c words 0 (fileOf files) = .ok path) : ∃ e, files.find path = .ok e := by
  unfold operand at h
  dsimp only at h
  split at h
  · cases h
  · rename_i word hword
    unfold valueOf at h
    cases hfile : fileOf files word with
    | error fault =>
      rw [hfile] at h
      cases h
    | ok path' =>
      rw [hfile] at h
      cases h
      exact fileOf_found hfile

theorem placeOf_found {c : Command} {words : List String} {files : FileStore} {place : Path × Nat × Nat}
    (h : placeOf files c words = .ok place) : ∃ e, files.find place.1 = .ok e := by
  obtain ⟨path, hpath, h⟩ := bind_eq_ok h
  obtain ⟨line, -, h⟩ := bind_eq_ok h
  obtain ⟨column, -, h⟩ := bind_eq_ok h
  obtain ⟨-, -, h⟩ := bind_eq_ok h
  cases h
  exact operand_found hpath

theorem Task.ofWords_found {files : FileStore} {c : Command} {w : Words} {task : Task}
    (h : Task.ofWords files c w = .ok task) : ∃ e, files.find task.path = .ok e := by
  cases c with
  | analyze =>
    obtain ⟨depth, -, h⟩ := bind_eq_ok h
    obtain ⟨path, hpath, h⟩ := bind_eq_ok h
    obtain ⟨-, -, h⟩ := bind_eq_ok h
    cases h
    exact operand_found hpath
  | locate =>
    obtain ⟨place, hplace, h⟩ := bind_eq_ok h
    cases h
    exact placeOf_found hplace
  | describe =>
    obtain ⟨place, hplace, h⟩ := bind_eq_ok h
    cases h
    exact placeOf_found hplace

/-- The script of a command is there. -/
theorem Request.ofWords_found {files : FileStore} {words : List String} {task : Task}
    (h : Request.ofWords files words = .ok (.run task)) : ∃ e, files.find task.path = .ok e := by
  unfold ofWords at h
  split at h
  · cases h
  · obtain ⟨w, -, h⟩ := bind_eq_ok h
    split at h
    · split at h <;> cases h
    · cases h
    · split at h
      · rename_i c hc
        obtain ⟨w', -, h⟩ := bind_eq_ok h
        split at h
        · cases h
        · obtain ⟨task', htask, h⟩ := bind_eq_ok h
          cases h
          exact Task.ofWords_found htask
      · split at h <;> cases h

/-! ## The analysis of a script -/

section

open Analysis (World Payload)

variable {ω : Type} (parsers : Parsers ω)

theorem fire_nobody {α β : Type} (e : Analysis.Emitter Empty) (call : Empty → α → β → β) (value : α)
    (w : β) : e.fire call value w = w := by
  unfold Analysis.Emitter.fire
  cases e.listeners with
  | nil => rfl
  | cons l _ => exact l.2.elim

theorem setAnalyzing_rest (running : Bool) (w : World Empty ω) :
    (w.setAnalyzing (surroundings parsers) running).rest = w.rest := by
  unfold World.setAnalyzing World.announceAnalyzing
  rw [fire_nobody]
  rfl

theorem replaceSnapshot_rest (make : Nat → Analysis.Snapshot) (w : World Empty ω) :
    (w.replaceSnapshot (surroundings parsers) make).rest = w.rest := by
  unfold World.replaceSnapshot World.announceSelection
  dsimp only
  rw [fire_nobody]
  rfl

theorem openAnalysis_rest (w : World Empty ω) : (w.openAnalysis (surroundings parsers)).rest = w.rest :=
  setAnalyzing_rest parsers true w

/-- What an analysis ends with does not concern the parser service. -/
theorem settleAnalysis_rest (source : Option String) (outcome : Except Analysis.Failure String)
    (w : World Empty ω) : (w.settleAnalysis (surroundings parsers) source outcome).2.rest = w.rest := by
  unfold World.settleAnalysis
  split
  · exact replaceSnapshot_rest parsers _ w
  · split
    · exact replaceSnapshot_rest parsers _ _
    · rfl

theorem serve_openAnalysis (text : String) (w : World Empty ω) :
    ((surroundings parsers).serve text (w.openAnalysis (surroundings parsers))).1 =
      (parsers.serve text w.rest).1 := by
  show (parsers.serve text (w.openAnalysis (surroundings parsers)).rest).1 = _
  rw [openAnalysis_rest]

theorem analyze_rest (text : String) (source : Option String) {w : World Empty ω}
    (hidle : w.view.isAnalyzing = false) :
    (w.analyze (surroundings parsers) text source).2.rest = (parsers.serve text w.rest).2 := by
  rw [World.analyze_eq text source hidle]
  dsimp only
  rw [setAnalyzing_rest, settleAnalysis_rest]
  show (parsers.serve text (w.openAnalysis (surroundings parsers)).rest).2 = _
  rw [openAnalysis_rest]

theorem surroundings_apart : (surroundings parsers).Apart :=
  ⟨by rintro ⟨⟩, fun _ _ => rfl, fun _ _ => rfl⟩

/-- How a run ends where the analysis fails. -/
def endingOf (f : Analysis.Failure) : Ending :=
  match f.stage? with
  | some e => .failed e.stage e.message
  | none => .broken (.analysis f)

/-- How a run ends with what the parser service returned. -/
def endingBy (report : Analysis.Snapshot → List Points) (source : String)
    (outcome : Except Analysis.Failure String) : Ending :=
  match World.payloadOf outcome with
  | .ok p => .printed (report (.ofPayload 1 (some source) p))
  | .error f => endingOf f

variable {parsers} {setting : Setting} {config : ParserConfig} {path : Path}
  {report : Analysis.Snapshot → List Points} {rest : ω}

theorem withAnalysis_unread {fault : DocumentFault} (h : setting.files.readText path = .error fault)
    (hfault : fault ≠ .file .nullCharacter) :
    withAnalysis setting parsers config path report rest =
      (endingOf (.stage (World.unreadable path fault)), parsers.closing (parsers.opening config rest)) := by
  have hanalysis (w : World Empty ω) : w.analyzeFile (surroundings parsers) setting.files setting.home path =
      (.error (.stage (World.unreadable path fault)), w) := by
    unfold World.analyzeFile
    rw [h]
    split
    · rename_i heq
      exact absurd (Except.error.inj heq) hfault
    · rename_i heq
      cases heq
      rfl
    · rename_i heq
      cases heq
  unfold withAnalysis
  dsimp only
  rw [hanalysis]
  rfl

theorem withAnalysis_read {text : String} (h : setting.files.readText path = .ok text) :
    withAnalysis setting parsers config path report rest =
      (endingBy report (path.absolute setting.home) (parsers.serve text (parsers.opening config rest)).1,
        parsers.closing (parsers.serve text (parsers.opening config rest)).2) := by
  have hanalysis (w : World Empty ω) : w.analyzeFile (surroundings parsers) setting.files setting.home path =
      w.analyze (surroundings parsers) text (some (path.absolute setting.home)) := by
    unfold World.analyzeFile
    rw [h]
  have hrest := analyze_rest parsers text (some (path.absolute setting.home))
    (w := ⟨.new true, parsers.opening config rest⟩) rfl
  have hserve := serve_openAnalysis parsers text ⟨.new true, parsers.opening config rest⟩
  unfold withAnalysis endingBy
  dsimp only at hrest hserve ⊢
  rw [hanalysis]
  refine Prod.ext ?_ (congrArg parsers.closing hrest)
  dsimp only
  rw [← hserve]
  cases hpayload : World.payloadOf ((surroundings parsers).serve text
      (World.openAnalysis (surroundings parsers) ⟨.new true, parsers.opening config rest⟩)).1 with
  | ok p =>
    obtain ⟨hresult, hview⟩ := World.analyze_of_payload text (some (path.absolute setting.home))
      (surroundings_apart parsers) rfl hpayload
    rw [hresult]
    exact congrArg (fun v : Analysis.View => Ending.printed (report v.snapshot)) hview
  | error f =>
    have hresult : (World.analyze (surroundings parsers) text (some (path.absolute setting.home))
        ⟨.new true, parsers.opening config rest⟩).1 = .error f := by
      cases hstage : f.stage? with
      | some e => exact (World.analyze_of_stage text _ (surroundings_apart parsers) rfl hpayload hstage).1
      | none => exact (World.analyze_of_break text _ (surroundings_apart parsers) rfl hpayload hstage).1
    rw [hresult]
    rfl

end

/-! ## Reports -/

/-- What is printed of a line is a line unless it has another line break. -/
theorem plain_isLine_iff (ps : Points) : IsLine (Ending.plain (ps ++ "\n")).escaped ↔ OneLine ps := by
  have hcount : (Ending.plain (ps ++ "\n")).escaped.toList.count '\n' = ps.count (.char '\n') + 1 := by
    rw [Text.count_escaped, Ending.plain, Ending.unescaped, Points.mapRuns, Points.mapRuns,
      Text.count_mapRunsFrom Text.count_joinLineEnds, Text.count_mapRunsFrom Text.count_dropEscapes, List.count_nil,
      Nat.zero_add, Nat.zero_add, List.count_append]
    rfl
  have hlast : (Ending.plain (ps ++ "\n")).escaped.toList.getLast? = some '\n' := by
    refine Text.getLast?_escaped (Text.getLast?_mapRunsFrom (fun h => (Text.getLast?_joinLineEnds _).trans h) [] ?_)
    exact Text.getLast?_mapRunsFrom Text.getLast?_dropEscapes [] List.getLast?_concat
  rw [IsLine, hcount, and_iff_left hlast, Nat.add_eq_right, List.count_eq_zero]
  rfl

/-- A run ends with a report: the exit code is one, and nothing is printed but one line with the stage that
failed and a message. -/
structure Ending.IsReport (e : Ending) : Prop where
  code : e.exitCode = 1
  output : e.output = ""
  worded : ∃ (stage : String) (message : Points),
    e.errorOutput = (Ending.plain ("Error: " ++ stage ++ ": " ++ message ++ "\n")).escaped
  line : IsLine e.errorOutput

theorem failed_isReport_iff (stage : String) (message : Points) :
    (Ending.failed stage message).IsReport ↔ OneLine stage ∧ OneLine message := by
  have hline : IsLine (Ending.failed stage message).errorOutput ↔ OneLine stage ∧ OneLine message := by
    rw [Ending.errorOutput, plain_isLine_iff]
    have hwords : OneLine "Error: " ∧ OneLine ": " := ⟨oneLine_ofList.2 (by decide), oneLine_ofList.2 (by decide)⟩
    simp only [oneLine_append, hwords.1, hwords.2, true_and, and_true]
  rw [← hline]
  exact ⟨Ending.IsReport.line, fun h => ⟨rfl, rfl, ⟨stage, message, rfl⟩, h⟩⟩

theorem not_broken_isReport (b : Breakdown) : ¬ (Ending.broken b).IsReport := by
  rintro ⟨-, -, -, -, ⟨⟩⟩

theorem not_printed_isReport (lines : List Points) : ¬ (Ending.printed lines).IsReport := by
  rintro ⟨-, -, -, -, ⟨⟩⟩

theorem printed_exitCode (lines : List Points) :
    (Ending.printed lines).exitCode = if lines.all Points.isLegible then 0 else 1 := rfl

/-! ## Troubles -/

/-- What keeps a run from its result: there is no level for diagnostics, the settings are refused, the
documentation is not loaded, the script is not read, the parser service fails, its output holds no payload, or
one of the lines on it cannot be written. -/
inductive Trouble where
  | logging (f : LogLevelFault)
  | settings (e : ConfigError)
  | docs (path : Path) (fault : Docs.LoadFault)
  | script (path : Path) (fault : DocumentFault)
  | service (f : Analysis.Failure)
  | output (r : Analysis.Payload.Refusal)
  | printing (lines : List Points)

namespace Trouble

/-- Whether a trouble comes before a parser service is opened. -/
def IsEarly : Trouble → Prop
  | .logging _ => True
  | .settings _ => True
  | .docs _ _ => True
  | _ => False

/-- How a run ends with a trouble. -/
def ending : Trouble → Ending
  | .logging f => .broken (.logging f)
  | .settings (.docsBarred path bar) => .broken (.config (.docsBarred path bar))
  | .settings e => .failed "config" e.message
  | .docs path fault =>
    if fault.isOfFile then .failed "docs" (fault.message path) else .broken (.docs path fault)
  | .script path fault => endingOf (.stage (Analysis.World.unreadable path fault))
  | .service f => endingOf f
  | .output r => endingOf r.failure
  | .printing lines => .printed lines

/-- Whether a trouble is reported, and no text that is taken over into the report has a line break. -/
def IsPlain : Trouble → Prop
  | .logging _ => False
  | .settings e => (∀ path bar, e ≠ .docsBarred path bar) ∧ ∀ given, e = .docsMissing given → OneLine given
  | .docs path fault =>
    fault.isOfFile = true ∧ OneLine path.text ∧ ∀ why, fault = .badYaml why → OneLine why
  | .script path _ => OneLine path.text
  | .service f => ∃ e, f.stage? = some e ∧ OneLine e.stage ∧ OneLine e.message
  | .output r => (∀ digits, r ≠ .integerTooLong digits) ∧ ∀ message, r = .reported message → OneLine message
  | .printing _ => False

/-- Whether the other texts of a trouble are such as it arises with: they have no line break, and of lines that are not
printed one cannot be written. -/
def IsWorded : Trouble → Prop
  | .docs _ fault => fault.IsWorded
  | .output (.wrongType typeName) => OneLine typeName
  | .printing lines => lines.all Points.isLegible = false
  | _ => True

theorem endingOf_isReport_iff (f : Analysis.Failure) : (endingOf f).IsReport ↔
    ∃ e, f.stage? = some e ∧ OneLine e.stage ∧ OneLine e.message := by
  unfold endingOf
  cases f.stage? with
  | none => exact iff_of_false (not_broken_isReport _) (by rintro ⟨_, ⟨⟩, -⟩)
  | some e => simp only [failed_isReport_iff, Option.some.injEq, exists_eq_left']

theorem isReport_iff {t : Trouble} (h : t.IsWorded) : t.ending.IsReport ↔ t.IsPlain := by
  have hstart : OneLine Analysis.startStage := oneLine_ofList.2 (by decide)
  have hjson : OneLine Analysis.jsonStage := oneLine_ofList.2 (by decide)
  have hparse : OneLine Analysis.parseStage := oneLine_ofList.2 (by decide)
  cases t with
  | logging f => exact iff_of_false (not_broken_isReport _) id
  | settings e =>
    have hreport (he : ∀ path bar, e ≠ .docsBarred path bar) :
        (ending (.settings e)).IsReport ↔ OneLine e.message := by
      have hending : ending (.settings e) = .failed "config" e.message := by
        cases e with
        | docsBarred path bar => exact absurd rfl (he path bar)
        | _ => rfl
      rw [hending, failed_isReport_iff]
      exact and_iff_right (oneLine_ofList.2 (by decide))
    by_cases he : ∀ path bar, e ≠ .docsBarred path bar
    · rw [hreport he, e.message_oneLine_iff]
      exact (and_iff_right he).symm
    · refine iff_of_false ?_ fun h => he h.1
      push Not at he
      obtain ⟨path, bar, rfl⟩ := he
      exact not_broken_isReport _
  | docs path fault =>
    unfold ending IsPlain
    dsimp only
    split
    · rename_i hfile
      rw [failed_isReport_iff, and_iff_right (oneLine_ofList.2 (by decide)), and_iff_right hfile]
      exact fault.message_oneLine_iff h hfile path
    · rename_i hfile
      exact iff_of_false (not_broken_isReport _) fun h => hfile h.1
  | script path fault =>
    refine (failed_isReport_iff _ _).trans ?_
    show OneLine Analysis.startStage ∧ OneLine s!"Cannot read file {path.text}: {fault.message path}" ↔ _
    have hwords : OneLine "Cannot read file " ∧ OneLine ": " := ⟨oneLine_ofList.2 (by decide), oneLine_ofList.2 (by decide)⟩
    rw [and_iff_right hstart]
    simp only [oneLine_stringAppend, oneLine_toString, hwords.1, hwords.2, fault.message_oneLine, true_and, and_true]
    rfl
  | service f => exact endingOf_isReport_iff f
  | output r =>
    refine (endingOf_isReport_iff _).trans ?_
    cases r with
    | empty => exact iff_of_true ⟨_, rfl, hjson, oneLine_ofList.2 (by decide)⟩ ⟨by rintro _ ⟨⟩, by rintro _ ⟨⟩⟩
    | notJson fault position =>
      refine iff_of_true ⟨_, rfl, hjson, ?_⟩ ⟨by rintro _ ⟨⟩, by rintro _ ⟨⟩⟩
      have hwords : OneLine "Parser output is not valid JSON (" ∧ OneLine " at char " ∧ OneLine ")" :=
        ⟨oneLine_ofList.2 (by decide), oneLine_ofList.2 (by decide), oneLine_ofList.2 (by decide)⟩
      simp only [oneLine_stringAppend, oneLine_toString, hwords, fault.message_oneLine, toString_nat_oneLine, and_true]
    | integerTooLong digits => exact iff_of_false (by rintro ⟨_, ⟨⟩, -⟩) fun h => h.1 digits rfl
    | reported message =>
      constructor
      · rintro ⟨e, hstage, -, hmessage⟩
        cases hstage
        refine ⟨by rintro _ ⟨⟩, ?_⟩
        rintro _ ⟨⟩
        exact hmessage
      · rintro ⟨-, hmessage⟩
        exact ⟨_, rfl, hparse, hmessage message rfl⟩
    | wrongType typeName =>
      refine iff_of_true ⟨_, rfl, hjson, ?_⟩ ⟨by rintro _ ⟨⟩, by rintro _ ⟨⟩⟩
      have hwords : OneLine "Unexpected parser output type: " := oneLine_ofList.2 (by decide)
      exact (oneLine_stringAppend _ _).2 ⟨hwords, h⟩
  | printing lines => exact iff_of_false (not_printed_isReport lines) id

theorem ending_exitCode {t : Trouble} (h : t.IsWorded) : t.ending.exitCode = 1 := by
  have hfailure (f : Analysis.Failure) : (endingOf f).exitCode = 1 := by
    unfold endingOf
    cases f.stage? <;> rfl
  cases t with
  | logging f => rfl
  | settings e => cases e <;> rfl
  | docs path fault =>
    unfold ending
    dsimp only
    split <;> rfl
  | script path fault => exact hfailure (.stage (Analysis.World.unreadable path fault))
  | service f => exact hfailure f
  | output r => exact hfailure r.failure
  | printing lines => exact (printed_exitCode lines).trans (if_neg (Bool.eq_false_iff.1 h))

end Trouble

/-! ## Runs -/

section

open Analysis (Payload)

variable {ω : Type} (setting : Setting) (parsers : Parsers ω)

/-- The documentation for a command, or the trouble with it. -/
def documented (config : ParserConfig) : Task → Except Trouble Docs.Catalog
  | .describe _ _ _ =>
    match config.docs with
    | none => .ok .packaged
    | some path =>
      match Docs.Catalog.empty.load parsers.yaml setting.files path with
      | (.ok _, docs) => .ok docs
      | (.error fault, _) => .error (.docs path fault)
  | _ => .ok .empty

/-- The trouble with the analysis of a script and with what is reported of it. -/
def analysisTrouble? (config : ParserConfig) (path : Path) (report : Analysis.Snapshot → List Points) (rest : ω) :
    Option Trouble :=
  match setting.files.readText path with
  | .error fault => some (.script path fault)
  | .ok text =>
    match (parsers.serve text (parsers.opening config rest)).1 with
    | .error f => some (.service f)
    | .ok raw =>
      match Payload.read raw with
      | .error r => some (.output r)
      | .ok p =>
        let lines := report (.ofPayload 1 (some (path.absolute setting.home)) p)
        if lines.all Points.isLegible then none else some (.printing lines)

/-- The trouble that a command meets, if it does. -/
def trouble? (task : Task) (rest : ω) : Option Trouble :=
  match setting.environment.logLevel, (ParserConfig.ofEnvironment setting.environment setting.files).1 with
  | .error f, _ => some (.logging f)
  | .ok _, .error e => some (.settings e)
  | .ok _, .ok config =>
    match documented setting parsers config task with
    | .error t => some t
    | .ok docs => analysisTrouble? setting parsers config task.path (reportOf docs task) rest

/-- The state of the parser services when the one of a run is closed. -/
def served (config : ParserConfig) (path : Path) (rest : ω) : ω :=
  match setting.files.readText path with
  | .error _ => parsers.opening config rest
  | .ok text => (parsers.serve text (parsers.opening config rest)).2

/-- What a run of a command comes to. -/
structure Reports (words : List String) (task : Task) (rest : ω) : Prop where
  /-- Without trouble there is a result, and the exit code is zero. -/
  result : trouble? setting parsers task rest = none →
    (run setting parsers words rest).1.exitCode = 0 ∧ ∃ lines, (run setting parsers words rest).1 = .printed lines
  /-- Otherwise the trouble tells how the run ends. -/
  ending : ∀ t, trouble? setting parsers task rest = some t →
    (run setting parsers words rest).1 = t.ending
  /-- There is a result or a report on one line unless the trouble is one that has none. -/
  reported : (run setting parsers words rest).1.exitCode = 0 ∨ (run setting parsers words rest).1.IsReport ↔
    ∀ t, trouble? setting parsers task rest = some t → t.IsPlain
  /-- A trouble that comes early leaves the parser services alone. -/
  unopened : ∀ t, trouble? setting parsers task rest = some t → t.IsEarly →
    (run setting parsers words rest).2 = rest
  /-- In every other case the one that was opened is closed. -/
  closed : (∀ t, trouble? setting parsers task rest = some t → ¬ t.IsEarly) →
    ∃ config, (ParserConfig.ofEnvironment setting.environment setting.files).1 = .ok config ∧
      (run setting parsers words rest).2 = parsers.closing (served setting parsers config task.path rest)

variable {setting} {config : ParserConfig} {task : Task} (rest : ω)

theorem read_isWorded {raw : String} {r : Payload.Refusal} (h : Payload.read raw = .error r) :
    (Trouble.output r).IsWorded := by
  unfold Payload.read at h
  dsimp only at h
  split at h
  · cases h
    trivial
  · split at h
    · cases h
      trivial
    · cases h
      trivial
    · unfold Payload.ofJson at h
      split at h
      · cases h
      · split at h
        · cases h
        · cases h
          trivial
      · cases h
        exact Json.Value.typeName_oneLine _

/-- A trouble with the documentation comes early. -/
theorem documented_error {t : Trouble} (h : documented setting parsers config task = .error t) :
    t.IsEarly ∧ t.IsWorded := by
  unfold documented at h
  split at h
  · split at h
    · cases h
    · split at h
      · cases h
      · rename_i hload
        cases h
        exact ⟨trivial, Docs.Catalog.load_isWorded (congrArg Prod.fst hload)⟩
  · cases h

/-- It ends the run before a parser service is opened. -/
theorem runTask_eq : runTask setting parsers config task rest =
    match documented setting parsers config task with
    | .error t => (t.ending, rest)
    | .ok docs => withAnalysis setting parsers config task.path (reportOf docs task) rest := by
  cases task with
  | analyze path asJson depth => rfl
  | locate path line column => rfl
  | describe path line column =>
    unfold runTask docsFor loadDocs documented
    cases config.docs with
    | none => rfl
    | some docs =>
      dsimp only
      cases hload : Docs.Catalog.empty.load parsers.yaml setting.files docs with
      | mk outcome catalog => cases outcome <;> rfl

/-- Whatever keeps a file that is there from being read, its path can be asked for. -/
theorem readText_found {files : FileStore} {path : Path} (hfound : ∃ e, files.find path = .ok e) :
    files.readText path ≠ .error (.file .nullCharacter) := by
  obtain ⟨e, hfind⟩ := hfound
  unfold FileStore.readText FileStore.read
  rw [hfind]
  have hread (bytes : List UInt8) : (readDocument bytes).mapError DocumentFault.text ≠
      .error (.file .nullCharacter) := by
    cases readDocument bytes <;> rintro ⟨⟩
  cases e with
  | file content => exact hread content
  | closedFile content => rintro ⟨⟩
  | directory => rintro ⟨⟩
  | closedDirectory => rintro ⟨⟩
  | device => exact hread []

/-- A trouble with the analysis tells how a run ends, and the parser service is closed with or without. -/
theorem withAnalysis_spec {path : Path} (report : Analysis.Snapshot → List Points)
    (hfound : ∃ e, setting.files.find path = .ok e) :
    (withAnalysis setting parsers config path report rest).2 =
        parsers.closing (served setting parsers config path rest) ∧
      ((∃ t, analysisTrouble? setting parsers config path report rest = some t ∧ ¬ t.IsEarly ∧ t.IsWorded ∧
          (withAnalysis setting parsers config path report rest).1 = t.ending) ∨
        analysisTrouble? setting parsers config path report rest = none ∧
          ∃ lines, (withAnalysis setting parsers config path report rest).1 = .printed lines ∧
            lines.all Points.isLegible = true) := by
  unfold served analysisTrouble?
  cases htext : setting.files.readText path with
  | error fault =>
    have hfault : fault ≠ .file .nullCharacter := by
      rintro rfl
      exact readText_found hfound htext
    rw [withAnalysis_unread htext hfault]
    exact ⟨rfl, .inl ⟨.script path fault, rfl, id, trivial, rfl⟩⟩
  | ok text =>
    rw [withAnalysis_read htext]
    refine ⟨rfl, ?_⟩
    dsimp only
    cases (parsers.serve text (parsers.opening config rest)).1 with
    | error f => exact .inl ⟨.service f, rfl, id, trivial, rfl⟩
    | ok raw =>
      dsimp only
      cases hread : Payload.read raw with
      | error r =>
        refine .inl ⟨.output r, rfl, id, read_isWorded hread, ?_⟩
        unfold endingBy Analysis.World.payloadOf
        dsimp only
        rw [hread]
        rfl
      | ok p =>
        have hending : endingBy report (path.absolute setting.home) (.ok raw) =
            .printed (report (.ofPayload 1 (some (path.absolute setting.home)) p)) := by
          unfold endingBy Analysis.World.payloadOf
          dsimp only
          rw [hread]
          rfl
        rw [hending]
        dsimp only
        cases hlines : (report (.ofPayload 1 (some (path.absolute setting.home)) p)).all Points.isLegible with
        | true => exact .inr ⟨rfl, _, rfl, hlines⟩
        | false => exact .inl ⟨.printing _, rfl, id, hlines, rfl⟩

/-- A run of a command carries its task out if the environment makes settings. -/
theorem run_eq {words : List String} (hcompletion : setting.environment.nonEmpty? Completion.variableName = none)
    (htask : Request.ofWords setting.files words = .ok (.run task)) :
    run setting parsers words rest =
      match setting.environment.logLevel, (ParserConfig.ofEnvironment setting.environment setting.files).1 with
      | .error f, _ => (Trouble.ending (.logging f), rest)
      | .ok _, .error e => (Trouble.ending (.settings e), rest)
      | .ok _, .ok config => runTask setting parsers config task rest := by
  unfold run runWords answer
  rw [hcompletion, htask]
  dsimp only [reachesCommand]
  cases setting.environment.logLevel with
  | error f => rfl
  | ok level =>
    dsimp only
    cases (ParserConfig.ofEnvironment setting.environment setting.files).1 with
    | ok config => rfl
    | error e => cases e <;> rfl

/-- A run of a command ends with an early trouble, or opens a parser service and closes it. -/
theorem run_cases {words : List String} (hcompletion : setting.environment.nonEmpty? Completion.variableName = none)
    (htask : Request.ofWords setting.files words = .ok (.run task)) :
    (∃ t, trouble? setting parsers task rest = some t ∧ t.IsEarly ∧ t.IsWorded ∧
        run setting parsers words rest = (t.ending, rest)) ∨
      ∃ config, (ParserConfig.ofEnvironment setting.environment setting.files).1 = .ok config ∧
        (run setting parsers words rest).2 = parsers.closing (served setting parsers config task.path rest) ∧
        ((∃ t, trouble? setting parsers task rest = some t ∧ ¬ t.IsEarly ∧ t.IsWorded ∧
            (run setting parsers words rest).1 = t.ending) ∨
          trouble? setting parsers task rest = none ∧
            ∃ lines, (run setting parsers words rest).1 = .printed lines ∧ lines.all Points.isLegible = true) := by
  rw [run_eq parsers rest hcompletion htask]
  unfold trouble?
  cases hlevel : setting.environment.logLevel with
  | error f => exact .inl ⟨_, rfl, trivial, trivial, rfl⟩
  | ok level =>
    cases hconfig : (ParserConfig.ofEnvironment setting.environment setting.files).1 with
    | error e => exact .inl ⟨_, rfl, trivial, trivial, rfl⟩
    | ok config =>
      dsimp only
      rw [runTask_eq]
      cases hdocs : documented setting parsers config task with
      | error t =>
        obtain ⟨hearly, hworded⟩ := documented_error parsers hdocs
        exact .inl ⟨t, rfl, hearly, hworded, rfl⟩
      | ok docs =>
        exact .inr ⟨config, rfl, withAnalysis_spec parsers rest (reportOf docs task) (Request.ofWords_found htask)⟩

/-- A run that ends with a trouble is reported just when the trouble is plain. -/
theorem reported_iff {e : Ending} {trouble : Option Trouble} {t : Trouble} (ht : trouble = some t)
    (hworded : t.IsWorded) (he : e = t.ending) :
    (e.exitCode = 0 ∨ e.IsReport) ↔ ∀ t, trouble = some t → t.IsPlain := by
  subst ht he
  rw [Trouble.ending_exitCode hworded, or_iff_right Nat.one_ne_zero, t.isReport_iff hworded]
  simp only [Option.some.injEq, forall_eq']

/-- What every run of a command comes to, whatever the files, the environment and the parser service are: a
result, a report on one line, or a trouble that is not plain. The parser service is closed if it was opened. -/
theorem run_reports (setting : Setting) (parsers : Parsers ω) (words : List String) (task : Task) (rest : ω)
    (hcompletion : setting.environment.nonEmpty? Completion.variableName = none)
    (htask : Request.ofWords setting.files words = .ok (.run task)) :
    Reports setting parsers words task rest := by
  rcases run_cases parsers rest hcompletion htask with
    ⟨t, ht, hearly, hworded, hrun⟩ |
    ⟨config, hconfig, hclosed, ⟨t, ht, hlate, hworded, hending⟩ | ⟨hnone, lines, hlines, hlegible⟩⟩
  · have hending : (run setting parsers words rest).1 = t.ending := congrArg Prod.fst hrun
    constructor
    case result => exact fun hnone => absurd (ht.symm.trans hnone) (Option.some_ne_none t)
    case ending => exact fun t' ht' => Option.some.inj (ht.symm.trans ht') ▸ hending
    case reported => exact reported_iff ht hworded hending
    case unopened => exact fun _ _ _ => congrArg Prod.snd hrun
    case closed => exact fun h => absurd hearly (h t ht)
  · constructor
    case result => exact fun hnone => absurd (ht.symm.trans hnone) (Option.some_ne_none t)
    case ending => exact fun t' ht' => Option.some.inj (ht.symm.trans ht') ▸ hending
    case reported => exact reported_iff ht hworded hending
    case unopened => exact fun t' ht' hearly => absurd hearly (Option.some.inj (ht.symm.trans ht') ▸ hlate)
    case closed => exact fun _ => ⟨config, hconfig, hclosed⟩
  · have hno (t : Trouble) : trouble? setting parsers task rest ≠ some t :=
      hnone.trans_ne (Option.some_ne_none t).symm
    have hcode : (run setting parsers words rest).1.exitCode = 0 := by
      rw [hlines, printed_exitCode, if_pos hlegible]
    constructor
    case result => exact fun _ => ⟨hcode, lines, hlines⟩
    case ending => exact fun t ht => absurd ht (hno t)
    case reported => exact iff_of_true (.inl hcode) fun t ht => absurd ht (hno t)
    case unopened => exact fun t ht => absurd ht (hno t)
    case closed => exact fun _ => ⟨config, hconfig, hclosed⟩

end

theorem oneLetter_task : oneLetter.environment.nonEmpty? Completion.variableName = none ∧
    Request.ofWords oneLetter.files ["analyze", "a.ps1"] = .ok (.run (.analyze ⟨"", ["a.ps1"]⟩ false none)) :=
  ⟨rfl, by decide +kernel⟩

theorem run_reports_oneLetter : oneLetter.environment.nonEmpty? Completion.variableName = none ∧
    Request.ofWords oneLetter.files ["analyze", "a.ps1"] = .ok (.run (.analyze ⟨"", ["a.ps1"]⟩ false none)) ∧
    Reports oneLetter (sameAnswer "[]") ["analyze", "a.ps1"] (.analyze ⟨"", ["a.ps1"]⟩ false none) () :=
  ⟨oneLetter_task.1, oneLetter_task.2,
    run_reports oneLetter (sameAnswer "[]") _ _ () oneLetter_task.1 oneLetter_task.2⟩

/-- A message of the parser on two lines is reported on two lines. -/
theorem not_reported_two_lines :
    let raw := "\x7b\"error\": true, \"message\": \"a\\nb\"\x7d"
    let ending := (run oneLetter (sameAnswer raw) ["analyze", "a.ps1"] ()).1
    ending.errorOutput = "Error: parse: a\nb\n" ∧ ending.exitCode ≠ 0 ∧ ¬ ending.IsReport := by
  intro raw ending
  have hread : Analysis.Payload.read raw = .error (.reported "a\nb") := calc
    Analysis.Payload.read raw = Analysis.Payload.ofJson (.object [("error", .bool true), ("message", .text "a\nb")]) :=
      Analysis.Payload.read_ofList (by cbv) (by cbv)
    _ = .error (.reported "a\nb") := by rfl
  have hconfig : (ParserConfig.ofEnvironment oneLetter.environment oneLetter.files).1 = .ok .standard := by
    rw [ParserConfig.ofEnvironment_ok_iff]
    decide +kernel
  have hlevel : oneLetter.environment.logLevel = .ok standardLogLevel := by rfl
  have hending : ending = .failed "parse" "a\nb" := by
    have htext : oneLetter.files.readText ⟨"", ["a.ps1"]⟩ = .ok "x" := by rfl
    show (run oneLetter (sameAnswer raw) ["analyze", "a.ps1"] ()).1 = _
    rw [run_eq _ _ oneLetter_task.1 oneLetter_task.2, hlevel, hconfig]
    dsimp only
    rw [runTask_eq]
    show (withAnalysis _ _ _ ⟨"", ["a.ps1"]⟩ _ _).1 = _
    rw [withAnalysis_read htext]
    show endingBy _ _ (.ok raw) = _
    unfold endingBy Analysis.World.payloadOf
    dsimp only
    rw [hread]
    rfl
  rw [hending]
  refine ⟨by decide +kernel, by decide, ?_⟩
  rw [failed_isReport_iff]
  decide

end CommandLine
end ScriptTree
