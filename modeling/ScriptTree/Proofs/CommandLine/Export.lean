/-
The export of an analysis as JSON. What is printed for an output of the parser can be read again: the
objects of the trees, each before those of its children, are the nodes of the forest from the top, and the
forest of these nodes is the same forest without its orphans. Nothing is printed, however, where a text of
the analysis holds half of a surrogate pair: the run breaks off instead (`export_lossless`).
-/
import ScriptTree.CommandLine.Run
import ScriptTree.Proofs.Analysis.Payload
import ScriptTree.Proofs.Tree.Layout
import ScriptTree.Proofs.Tree.Wire

namespace ScriptTree

open Analysis (Payload Snapshot)
open Json (IsShown Legible Plain)

/-! ## What is printed -/

namespace Text

variable {cs : List Char} (h : ∀ c ∈ cs, IsShown (.char c))

include h

/-- Without escape characters there is no terminal escape. -/
theorem dropEscapes_of_shown : dropEscapes cs = cs := by
  show dropEscapesFrom 0 cs = cs
  induction cs with
  | nil => rfl
  | cons c cs ih =>
    obtain ⟨hc, hcs⟩ := List.forall_mem_cons.1 h
    have hplain : c ≠ '\x1b' := by
      rintro rfl
      exact absurd hc (by decide)
    rw [dropEscapesFrom, if_neg hplain, ih hcs]

/-- Without returns there is nothing to join. -/
theorem joinLineEnds_of_shown : joinLineEnds cs = cs := by
  induction cs with
  | nil => rfl
  | cons c cs ih =>
    obtain ⟨hc, hcs⟩ := List.forall_mem_cons.1 h
    unfold joinLineEnds
    split
    · rename_i heq
      cases heq
      exact absurd hc (by decide)
    · rename_i heq
      cases heq
      rw [ih hcs]
    · rename_i heq
      cases heq

end Text

namespace CommandLine

section

variable {v : Json.Value} (h : Plain v)

include h

/-- A value without loss all of whose texts can be encoded is printed as it is written, on a line of its own. -/
theorem output_block (hlegible : Legible v) :
    (Ending.printed [Json.writeBlock v]).output = String.ofList (Json.blockChars 0 v ++ ['\n']) := by
  have hblock : Points.isLegible (Json.writeBlock v) = true := (Json.blockText_isLegible_iff h 0).2 hlegible
  have htext : textOf [Json.writeBlock v] = Points.ofChars (Json.blockChars 0 v ++ ['\n']) := by
    rw [textOf, List.flatMap_singleton, ← Points.ofChars_chars hblock]
    exact List.map_append.symm
  have hshown : ∀ c ∈ Json.blockChars 0 v ++ ['\n'], IsShown (.char c) := by
    refine List.forall_mem_append.2 ⟨fun c hc => ?_, List.forall_mem_singleton.2 (.inl rfl)⟩
    exact Json.blockText_shown h 0 _ (Points.mem_chars.1 hc)
  rw [Ending.output, List.takeWhile_cons_of_pos hblock, List.takeWhile_nil, htext, Ending.plain, Ending.unescaped,
    Points.mapRuns_ofChars, Points.mapRuns_ofChars, Points.chars_ofChars, Text.dropEscapes_of_shown hshown,
    Text.joinLineEnds_of_shown hshown]

theorem read_output (hlegible : Legible v) :
    Json.read (Ending.printed [Json.writeBlock v]).output = .ok v := by
  rw [output_block h hlegible, Json.read, String.toList_ofList, Json.readChars_block h hlegible]

theorem exitCode_block (hlegible : Legible v) : (Ending.printed [Json.writeBlock v]).exitCode = 0 := by
  refine if_pos ?_
  rw [List.all_cons, List.all_nil, Bool.and_true]
  exact (Json.blockText_isLegible_iff h 0).2 hlegible

/-- Nothing comes of any other. -/
theorem broken_block (hlegible : ¬ Legible v) : (Ending.printed [Json.writeBlock v]).exitCode = 1 ∧
    (Ending.printed [Json.writeBlock v]).output = "" ∧ (Ending.fault? [Json.writeBlock v]).isSome = true := by
  have hblock : ¬ Points.isLegible (Json.writeBlock v) = true := (Json.blockText_isLegible_iff h 0).not.2 hlegible
  refine ⟨if_neg ?_, ?_, ?_⟩
  · rwa [List.all_cons, List.all_nil, Bool.and_true]
  · rw [Ending.output, List.takeWhile_cons_of_neg hblock]
    rfl
  · rw [Ending.fault?, List.findSome?_singleton, Points.encodeFault?_isSome, Ending.unescaped,
      Points.isLegible_mapRuns, Points.isLegible_append, Bool.eq_false_iff.2 hblock]
    rfl

end

/-! ## The export of a forest -/

/-- The text is an object that holds trees. The objects of these, each before those of its children, are
read as the nodes of the forest from the top, and the nodes read have the same forest, without orphans. -/
def Exports (f : Forest) (printed : String) : Prop :=
  ∃ fields trees, Json.read printed = .ok (.object fields) ∧
    Json.Value.field? "nodes" fields = some (.list trees) ∧ trees = Tree.toJsonAll f.roots ∧
    (Json.preorderAll trees).map Payload.nodeOf? = (Tree.flatten f.roots).map (some ∘ Tree.value) ∧
    Forest.build ((Json.preorderAll trees).filterMap Payload.nodeOf?) = { f with orphans := [] }

/-- The export of a forest ends in one of two ways. All texts of the document can be encoded, and the forest is
exported; or one cannot, the run breaks off at it, and nothing is printed. -/
def Exported (f : Forest) (document : Json.Value) (ending : Ending) : Prop :=
  Legible document ∧ ending.exitCode = 0 ∧ Exports f ending.output ∨
    ¬ Legible document ∧ ending.exitCode = 1 ∧ ending.output = "" ∧
      ∃ lines, ending = .printed lines ∧ (Ending.fault? lines).isSome = true

section

variable {raw : String} {p : Payload} (hread : Payload.read raw = .ok p)

include hread

/-- The nodes of the forest of an output that was read are sound. -/
theorem preorder_sound : ∀ s ∈ Tree.preorderAll (Forest.build p.nodes).roots, s.value.Sound := by
  intro s hs
  have h := Forest.describes_tableOf p.nodes
  obtain ⟨n, hn, hvalue⟩ := Forest.exists_of_mem_tableOf (h.value _ s (h.subtree_indexed s hs))
  rw [← hvalue]
  exact ((Payload.read_sound hread).1 n hn).capped

theorem jsonOf_plain (epoch : Nat) (source : Option String) :
    Plain (jsonOf (.ofPayload epoch source p)) := by
  have hsource : Plain ((source.map Json.Value.text).getD .null) := by
    cases source with
    | none => exact .null
    | some s => exact .text s
  have herrors : Plain (.list (p.errors.map SyntaxError.toJson)) := by
    refine .list fun v hv => ?_
    obtain ⟨e, he, rfl⟩ := List.mem_map.1 hv
    exact SyntaxError.toJson_plain ((Payload.read_sound hread).2 e he)
  refine .object (by simp) ?_
  simp only [List.forall_mem_cons]
  exact ⟨hsource, .list (Tree.toJsonAll_plain _ (preorder_sound hread)), herrors, nofun⟩

/-- The document is read again as the trees of the forest. -/
theorem exports (epoch : Nat) (source : Option String) (hlegible : Legible (jsonOf (.ofPayload epoch source p))) :
    Exports (.build p.nodes) (Ending.printed [Json.writeBlock (jsonOf (.ofPayload epoch source p))]).output := by
  have hmap : (Json.preorderAll (Tree.toJsonAll (Forest.build p.nodes).roots)).map Payload.nodeOf? =
      (Tree.flatten (Forest.build p.nodes).roots).map (some ∘ Tree.value) := by
    rw [Tree.preorderAll_toJsonAll, Tree.flatten_eq_preorderAll, List.map_map]
    exact List.map_congr_left fun s hs => Tree.nodeOf?_toJson (preorder_sound hread s hs)
  have hnodes : (Json.preorderAll (Tree.toJsonAll (Forest.build p.nodes).roots)).filterMap Payload.nodeOf? =
      (Tree.flatten (Forest.build p.nodes).roots).map Tree.value := by
    rw [show Payload.nodeOf? = id ∘ Payload.nodeOf? from rfl, ← List.filterMap_map, hmap, List.filterMap_map]
    exact congrFun List.filterMap_eq_map _
  exact ⟨_, _, read_output (jsonOf_plain hread epoch source) hlegible, rfl, rfl, hmap,
    (congrArg _ hnodes).trans (Forest.build_flatten _)⟩

theorem exported (epoch : Nat) (source : Option String) :
    Exported (.build p.nodes) (jsonOf (.ofPayload epoch source p))
      (.printed [Json.writeBlock (jsonOf (.ofPayload epoch source p))]) := by
  have hplain := jsonOf_plain hread epoch source
  by_cases hlegible : Legible (jsonOf (.ofPayload epoch source p))
  · exact .inl ⟨hlegible, exitCode_block hplain hlegible, exports hread epoch source hlegible⟩
  · obtain ⟨hcode, hnothing, hfault⟩ := broken_block hplain hlegible
    exact .inr ⟨hlegible, hcode, hnothing, _, rfl, hfault⟩

omit hread in
/-- A run that is asked for an analysis needs no documentation. -/
theorem runTask_analyze {ω : Type} (setting : Setting) (parsers : Parsers ω) (config : ParserConfig) (path : Path)
    (asJson : Bool) (limit : Option Nat) (rest : ω) : runTask setting parsers config (.analyze path asJson limit) rest =
      withAnalysis setting parsers config path (reportOf .empty (.analyze path asJson limit)) rest := rfl

/-- A run prints what is reported of the analysis of the output that it gets. -/
theorem withAnalysis_printed {ω : Type} {setting : Setting} {parsers : Parsers ω} {config : ParserConfig}
    {path : Path} {rest : ω} {text : String} (hfile : setting.files.readText path = .ok text)
    (hserve : (parsers.serve text (parsers.opening config rest)).1 = .ok raw)
    (report : Snapshot → List Points) :
    (withAnalysis setting parsers config path report rest).1 =
      .printed (report (.ofPayload 1 (some (path.absolute setting.home)) p)) := by
  have hapart : (surroundings parsers).Apart := ⟨nofun, fun _ _ => rfl, fun _ _ => rfl⟩
  obtain ⟨p', hp', hresult, hsnapshot⟩ := (Analysis.World.analyze_installs hapart
    (w := ⟨.new true, parsers.opening config rest⟩) rfl text (some (path.absolute setting.home)) hserve hread).2
  obtain rfl : p = p' := Except.ok.inj (hread.symm.trans hp')
  rw [withAnalysis]
  simp only [Analysis.World.analyzeFile, hfile]
  rw [hresult, hsnapshot]
  rfl

end

/-- The export of an analysis is lossless where it can be printed. Whatever output of the parser was read, what every
run that is asked for JSON and gets this output prints for it holds the trees of its forest, which can be read
again and have the same forest; but a text that cannot be encoded breaks the run off with nothing printed. -/
theorem export_lossless {raw : String} {p : Payload} (hread : Payload.read raw = .ok p) :
    (∀ epoch source, Exported (.build p.nodes) (jsonOf (.ofPayload epoch source p))
      (.printed [Json.writeBlock (jsonOf (.ofPayload epoch source p))])) ∧
    ∀ (ω : Type) (setting : Setting) (parsers : Parsers ω) (config : ParserConfig) (path : Path)
      (limit : Option Nat) (rest : ω) (text : String), setting.files.readText path = .ok text →
      (parsers.serve text (parsers.opening config rest)).1 = .ok raw →
      Exported (.build p.nodes) (jsonOf (.ofPayload 1 (some (path.absolute setting.home)) p))
        (runTask setting parsers config (.analyze path true limit) rest).1 := by
  refine ⟨exported hread, fun ω setting parsers config path limit rest text hfile hserve => ?_⟩
  rw [runTask_analyze, withAnalysis_printed hread hfile hserve]
  exact exported hread _ _

/-- Where a script of one letter is the only file, and no variable is set. -/
def oneLetter : Setting where
  environment := ⟨[], "/", []⟩
  files := ⟨[(["a.ps1"], .file [0x78])], [], 2⟩
  home := "/work"

/-- The path of the script. -/
def oneLetterPath : Path := ⟨"", ["a.ps1"]⟩

/-- A parser service that answers every script with one output. -/
def sameAnswer (raw : String) : Parsers Unit where
  opening _ w := w
  serve _ w := (.ok raw, w)
  closing w := w
  yaml _ := .error (.refused "")

/-- A node of which all is left out but its hash, its parent, its kind and its text. -/
def bareNode (hash : Int) (parent : Option Int) (kind text : Points) : Node :=
  { hash, parent, kind, text, extent := [], startLine := 0, startColumn := 0, endLine := 0, endColumn := 0
    textLength := 0, properties := [], id := [] }

set_option maxRecDepth 20000 in
/-- A child that comes before its parent, whose text is a line break. -/
theorem export_lossless_child_first :
    let raw := "[\x7b\"hashCode\":8,\"parentHashCode\":7\x7d,\x7b\"hashCode\":7,\"text\":\"\\n\"\x7d]"
    let p : Payload := ⟨[bareNode 8 (some 7) [] [], bareNode 7 none [] "\n"], [], 0⟩
    Payload.read raw = .ok p ∧ oneLetter.files.readText oneLetterPath = .ok "x" ∧
      ((sameAnswer raw).serve "x" ((sameAnswer raw).opening .standard ())).1 = .ok raw ∧
      Exports (.build p.nodes)
        (runTask oneLetter (sameAnswer raw) .standard (.analyze oneLetterPath true none) ()).1.output := by
  intro raw p
  have hread : Payload.read raw = .ok p := calc
    Payload.read raw = Payload.ofJson (.list [.object [("hashCode", .int 8), ("parentHashCode", .int 7)],
        .object [("hashCode", .int 7), ("text", .text "\n")]]) := Payload.read_ofList (by cbv) (by cbv)
    _ = .ok p := by rfl
  have hfile : oneLetter.files.readText oneLetterPath = .ok "x" := by rfl
  refine ⟨hread, hfile, rfl, ?_⟩
  rcases (export_lossless hread).2 Unit oneLetter (sameAnswer raw) .standard oneLetterPath none () "x" hfile rfl with
    ⟨-, -, hexports⟩ | ⟨hnot, -⟩
  · exact hexports
  · exact absurd ((Json.blockText_isLegible_iff (jsonOf_plain hread _ _) 0).1 (by cbv)) hnot

set_option maxRecDepth 20000 in
/-- A kind that is half of a surrogate pair: the output is accepted, but nothing is printed. -/
theorem not_exports_half :
    let raw := "[\x7b\"hashCode\":1,\"type\":\"\\ud800\"\x7d]"
    let p : Payload := ⟨[bareNode 1 none [.half 0] []], [], 0⟩
    let ending := (runTask oneLetter (sameAnswer raw) .standard (.analyze oneLetterPath true none) ()).1
    Payload.read raw = .ok p ∧ ending.output = "" ∧ ending.exitCode = 1 ∧ ¬ Exports (.build p.nodes) ending.output := by
  intro raw p ending
  have hread : Payload.read raw = .ok p := calc
    Payload.read raw = Payload.ofJson (.list [.object [("hashCode", .int 1), ("type", .text [.half 0])]]) :=
      Payload.read_ofList (by cbv) (by cbv)
    _ = .ok p := by rfl
  have hfile : oneLetter.files.readText oneLetterPath = .ok "x" := by rfl
  have hending : Exported (.build p.nodes)
      (jsonOf (.ofPayload 1 (some (oneLetterPath.absolute oneLetter.home)) p)) ending := by
    show Exported _ _ (runTask oneLetter (sameAnswer raw) .standard (.analyze oneLetterPath true none) ()).1
    rw [runTask_analyze, withAnalysis_printed hread hfile rfl]
    exact exported hread 1 _
  have hhalf : Points.isLegible (Json.blockText 0
      (jsonOf (.ofPayload 1 (some (oneLetterPath.absolute oneLetter.home)) p))) = false := by cbv
  have hillegible := (Json.blockText_isLegible_iff (jsonOf_plain hread _ _) 0).not.1 (Bool.eq_false_iff.1 hhalf)
  obtain ⟨hlegible, -⟩ | ⟨-, hcode, hnothing, -⟩ := hending
  · exact absurd hlegible hillegible
  · refine ⟨hread, hnothing, hcode, ?_⟩
    rw [hnothing]
    rintro ⟨fields, trees, hjson, -⟩
    cases hjson.symm.trans (show Json.read "" = .error (.syntaxFault .valueWanted 0) by rfl)

end CommandLine
end ScriptTree
