/-
What becomes of an analysis for every text that the parser service can return. The forest of the text
is installed, or a failure of one of the last two stages leaves an empty snapshot; but a whole number
with too many digits breaks the analysis off and leaves the tree of the document before in view
(`analyze_settles`). Only a text with more digits in a row than the limit can do that.
-/
import ScriptTree.Proofs.Analysis.Session
import ScriptTree.Proofs.Json.Reader
import ScriptTree.Proofs.Text.Part

namespace ScriptTree

open Json (HasRun)

namespace Analysis

/-! ## Reading the parser's output -/

namespace Payload

theorem read_of_json {raw : String} {cs : List Char} {v : Json.Value} (htrim : Text.trim raw.toList = cs)
    (hv : Json.readChars cs = .ok v) : read raw = ofJson v := by
  cases cs with
  | nil =>
    simp [Json.readChars, Json.skipSpace, Json.readValue, Json.readAtom, Json.readNumber] at hv
  | cons c cs =>
    unfold read
    rw [htrim]
    simp [hv]

/-- Of a literal, whose characters are at hand: to take them out of a text, its bytes would have to be read first. -/
theorem read_ofList {cs : List Char} {v : Json.Value} (htrim : Text.trim cs = cs) (hv : Json.readChars cs = .ok v) :
    read (String.ofList cs) = ofJson v :=
  read_of_json (by rw [String.toList_ofList, htrim]) hv

/-- A refusal belongs to one of the last two stages, or it is for a number with too many digits,
which are all in the output. -/
theorem refusal_cases {raw : String} {r : Refusal} (h : read raw = .error r) :
    (∃ e, r.failure = .stage e ∧ (e.stage = jsonStage ∨ e.stage = parseStage)) ∨
      ∃ n, r = .integerTooLong n ∧ Integer.digitLimit < n ∧ HasRun n raw.toList := by
  cases r with
  | empty => exact .inl ⟨_, rfl, .inl rfl⟩
  | notJson fault position => exact .inl ⟨_, rfl, .inl rfl⟩
  | reported message => exact .inl ⟨_, rfl, .inr rfl⟩
  | wrongType typeName => exact .inl ⟨_, rfl, .inl rfl⟩
  | integerTooLong n =>
    refine .inr ⟨n, rfl, ?_⟩
    unfold read at h
    dsimp only at h
    split at h
    · cases h
    · split at h
      · cases h
      · rename_i digits heq
        cases h
        obtain ⟨hlong, hrun⟩ := Json.hasRun_of_integerTooLong heq
        exact ⟨hlong, hrun.of_part (Text.trim_part _)⟩
      · rename_i v heq
        -- what was decoded is refused for its kind or its report only
        unfold ofJson at h
        split at h
        · cases h
        · split at h <;> cases h
        · cases h

/-- An output of nothing but digits, and too many of them. -/
theorem read_ones {n : Nat} (hlong : Integer.digitLimit < n) :
    read (String.ofList (List.replicate n '1')) = .error (.integerTooLong n) := by
  obtain ⟨m, rfl⟩ : ∃ m, n = m + 1 := ⟨n - 1, by omega⟩
  have htrim : Text.trim (List.replicate (m + 1) '1') = List.replicate (m + 1) '1' := by
    refine Text.trim_of_not_blank fun c hc => ?_
    rw [List.eq_of_mem_replicate hc]
    decide
  have hdigits : Json.spanDigits (List.replicate (m + 1) '1') = (List.replicate (m + 1) '1', []) := by
    unfold Json.spanDigits
    rw [List.takeWhile_replicate, List.dropWhile_replicate]
    rfl
  have hnumber : Json.readNumber false (List.replicate (m + 1) '1') =
      some (.error (.integerTooLong (m + 1))) := by
    rw [List.replicate_succ] at hdigits ⊢
    simp [Json.readNumber, hdigits, Json.readFraction, Json.readExponent, hlong]
  have hvalue : ∀ fuel, Json.readValue (fuel + 1) (List.replicate (m + 1) '1') =
      .error (.integerTooLong (m + 1)) := by
    intro fuel
    rw [List.replicate_succ] at hnumber ⊢
    simp [Json.readValue, Json.readAtom, hnumber]
  have hspace : Json.skipSpace (List.replicate (m + 1) '1') = List.replicate (m + 1) '1' := by
    unfold Json.skipSpace
    rw [List.dropWhile_replicate]
    rfl
  have hmark : ¬ (List.replicate (m + 1) '1').head? = some (Char.ofNat 0xfeff) := by
    rw [List.replicate_succ, List.head?_cons]
    decide
  have hread : Json.readChars (List.replicate (m + 1) '1') = .error (.integerTooLong (m + 1)) := by
    unfold Json.readChars
    rw [hspace, hvalue, if_neg hmark]
  unfold read
  rw [String.toList_ofList, htrim]
  simp [hread]

end Payload

/-! ## The three ends of an analysis -/

namespace World

variable {ι ω : Type}

/-- The forest of the output is installed as the next snapshot, and its roots are returned. -/
def Installs (w : World ι ω) (source : Option String) (raw : String)
    (ended : Except Failure (List Tree) × World ι ω) : Prop :=
  ∃ p, Payload.read raw = .ok p ∧ ended.1 = .ok (Forest.build p.nodes).roots ∧
    ended.2.snapshot = .ofPayload (w.snapshot.epoch + 1) source p

/-- A failure of one of the last two stages: an empty snapshot is the next one, and no node is
selected. -/
def Clears (w : World ι ω) (ended : Except Failure (List Tree) × World ι ω) : Prop :=
  ∃ e, (e.stage = jsonStage ∨ e.stage = parseStage) ∧ ended.1 = .error (.stage e) ∧
    ended.2.snapshot = .blank (w.snapshot.epoch + 1) ∧ ended.2.session.selection = none

/-- A whole number with `n` digits, too many of them, is the failure, and the snapshot and the
selection are those that were there. -/
def BreaksOff (w : World ι ω) (n : Nat) (ended : Except Failure (List Tree) × World ι ω) : Prop :=
  ended.1 = .error (.integerTooLong n) ∧ ended.2.snapshot = w.snapshot ∧
    ended.2.session.selection = w.session.selection

section

variable {env : Surroundings ι ω} (henv : env.Apart) {w : World ι ω} (hidle : w.session.isAnalyzing = false)
  (text : String) (source : Option String) {raw : String}
  (hraw : (env.serve text (w.openAnalysis env)).1 = .ok raw)

include henv hidle hraw

theorem analyze_installs {p : Payload} (hread : Payload.read raw = .ok p) :
    (w.analyze env text source).2.session.isAnalyzing = false ∧
      w.Installs source raw (w.analyze env text source) := by
  have hpayload : payloadOf (env.serve text (w.openAnalysis env)).1 = .ok p := by
    rw [hraw, payloadOf, hread, Except.mapError]
  obtain ⟨hresult, hview⟩ := analyze_of_payload text source henv hidle hpayload
  exact ⟨(congrArg View.isAnalyzing hview).trans hidle,
    p, hread, hresult, congrArg View.snapshot hview⟩

theorem analyze_clears {r : Payload.Refusal} (hread : Payload.read raw = .error r) {e : StageError}
    (he : r.failure = .stage e) (hstage : e.stage = jsonStage ∨ e.stage = parseStage) :
    (w.analyze env text source).2.session.isAnalyzing = false ∧ w.Clears (w.analyze env text source) := by
  have hpayload : payloadOf (env.serve text (w.openAnalysis env)).1 = .error (.stage e) := by
    rw [hraw, payloadOf, hread, Except.mapError, he]
  obtain ⟨hresult, hview⟩ := analyze_of_stage text source henv hidle hpayload rfl
  refine ⟨(congrArg View.isAnalyzing hview).trans hidle,
    e, hstage, hresult, congrArg View.snapshot hview, (congrArg View.selection hview).trans ?_⟩
  -- an empty snapshot has no root to select
  show firstSelection _ (.blank _) = none
  unfold firstSelection
  split <;> rfl

theorem analyze_breaksOff {n : Nat} (hread : Payload.read raw = .error (.integerTooLong n)) :
    (w.analyze env text source).2.session.isAnalyzing = false ∧
      w.BreaksOff n (w.analyze env text source) := by
  have hpayload : payloadOf (env.serve text (w.openAnalysis env)).1 = .error (.integerTooLong n) := by
    rw [hraw, payloadOf, hread, Except.mapError, Payload.Refusal.failure]
  obtain ⟨hresult, hview⟩ := analyze_of_break text source henv hidle hpayload rfl
  exact ⟨(congrArg View.isAnalyzing hview).trans hidle,
    hresult, congrArg View.snapshot hview, congrArg View.selection hview⟩

end

theorem not_installs_of_refused {w : World ι ω} {source : Option String} {raw : String}
    {r : Payload.Refusal} (hread : Payload.read raw = .error r) (ended : Except Failure (List Tree) × World ι ω) :
    ¬ w.Installs source raw ended := by
  rintro ⟨p, hp, -⟩
  rw [hread] at hp
  cases hp

theorem BreaksOff.not_clears {w : World ι ω} {n : Nat} {ended : Except Failure (List Tree) × World ι ω}
    (h : w.BreaksOff n ended) : ¬ w.Clears ended := by
  rintro ⟨e, -, hstage, -⟩
  exact nomatch hstage.symm.trans h.1

/-- Whatever the parser service returns, the analysis installs the output's forest, or it clears the
view; it breaks off where the output is refused for a whole number with too many digits, which the
output then holds in a row, and only there. In every case no analysis is running afterwards. -/
theorem analyze_settles {env : Surroundings ι ω} (henv : env.Apart) {w : World ι ω}
    (hidle : w.session.isAnalyzing = false) (text : String) (source : Option String) {raw : String}
    (hraw : (env.serve text (w.openAnalysis env)).1 = .ok raw) :
    (w.analyze env text source).2.session.isAnalyzing = false ∧
      ((∀ n, Payload.read raw ≠ .error (.integerTooLong n)) ∧
          (w.Installs source raw (w.analyze env text source) ∨ w.Clears (w.analyze env text source)) ∨
        ∃ n, Payload.read raw = .error (.integerTooLong n) ∧ Integer.digitLimit < n ∧
          HasRun n raw.toList ∧ w.BreaksOff n (w.analyze env text source)) := by
  cases hread : Payload.read raw with
  | ok p =>
    obtain ⟨hended, hinstalls⟩ := analyze_installs henv hidle text source hraw hread
    exact ⟨hended, .inl ⟨nofun, .inl hinstalls⟩⟩
  | error r =>
    rcases Payload.refusal_cases hread with ⟨e, he, hstage⟩ | ⟨n, rfl, hlong, hrun⟩
    · obtain ⟨hended, hclears⟩ := analyze_clears henv hidle text source hraw hread he hstage
      refine ⟨hended, .inl ⟨fun n h => ?_, .inr hclears⟩⟩
      cases h
      cases he
    · obtain ⟨hended, hbreaks⟩ := analyze_breaksOff henv hidle text source hraw hread
      exact ⟨hended, .inr ⟨n, rfl, hlong, hrun, hbreaks⟩⟩

/-- The script could not be parsed, and the parser says so. -/
theorem analyze_settles_reported :
    let raw := "\x7b\"error\":true\x7d"
    let env : Surroundings Empty Unit :=
      { notify := nofun, serve := fun _ w => (.ok raw, w), note := fun _ w => w
        release := id, latency := 0 }
    let w : World Empty Unit := ⟨.new true, ()⟩
    env.Apart ∧ w.session.isAnalyzing = false ∧ (env.serve "if" (w.openAnalysis env)).1 = .ok raw ∧
      w.Clears (w.analyze env "if" none) := by
  intro raw env w
  have henv : env.Apart := ⟨nofun, fun _ _ => rfl, fun _ _ => rfl⟩
  refine ⟨henv, rfl, rfl, ?_⟩
  have hread : Payload.read raw = .error (.reported "Unknown parser failure") := calc
    Payload.read raw = Payload.ofJson (.object [("error", .bool true)]) := Payload.read_ofList (by cbv) (by cbv)
    _ = .error (.reported "Unknown parser failure") := by rfl
  obtain ⟨-, ⟨-, ⟨p, hp, -⟩ | hclears⟩ | ⟨n, hn, -⟩⟩ := analyze_settles henv (w := w) rfl "if" none rfl
  · rw [hread] at hp
    cases hp
  · exact hclears
  · rw [hread] at hn
    cases hn

/-- One digit more than the limit, after an analysis that found a node: the node stays in view and
selected. -/
theorem not_settles_long_integer :
    let node : Node :=
      { hash := 7, parent := none, kind := "", text := "", extent := "", startLine := 0, startColumn := 0
        endLine := 0, endColumn := 0, textLength := 0, properties := [], id := "" }
    let env : Surroundings Empty Unit :=
      { notify := nofun, serve := fun text w => (.ok text, w), note := fun _ w => w
        release := id, latency := 0 }
    let w : World Empty Unit :=
      ⟨{ Session.new true with
          snapshot := .ofPayload 1 none ⟨[node], [], 0⟩, selection := some ⟨1, 7⟩ }, ()⟩
    let raw := String.ofList (List.replicate 4301 '1')
    let ended := w.analyze env raw none
    ¬ w.Installs none raw ended ∧ ¬ w.Clears ended ∧ w.BreaksOff 4301 ended ∧
      (w.snapshot.find? 7).map Tree.value = some node ∧ w.session.selection = some ⟨1, 7⟩ := by
  intro node env w raw ended
  have henv : env.Apart := ⟨nofun, fun _ _ => rfl, fun _ _ => rfl⟩
  have hread : Payload.read raw = .error (.integerTooLong 4301) := Payload.read_ones (by decide)
  have hbreaks : w.BreaksOff 4301 ended :=
    (analyze_breaksOff henv (w := w) rfl raw none rfl hread).2
  exact ⟨not_installs_of_refused hread ended, hbreaks.not_clears, hbreaks, by cbv, rfl⟩

end World
end Analysis
end ScriptTree
