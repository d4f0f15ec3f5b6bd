/-
What one operation does to a session whose surroundings leave it alone: listeners that do not call
back, and a parser service and notes that act elsewhere. Everything is said of the session's view,
which is the session without those who listen. A snapshot is replaced in one way only
(`View.replaced`), and an analysis ends in one of three: with the forest of a payload, with an empty
snapshot, or with the snapshot that was there.
-/
import ScriptTree.Analysis.Session
import ScriptTree.Proofs.Tree.Forest

namespace ScriptTree.Analysis

/-! ## The view of a session -/

/-- The state of a session without those who listen. -/
structure View where
  selectsRoot : Bool
  snapshot : Snapshot
  selection : Option NodeKey
  isAnalyzing : Bool

/-- The view after the snapshot was replaced by one of the next epoch. -/
def View.replaced (v : View) (make : Nat → Snapshot) : View :=
  let next := make (v.snapshot.epoch + 1)
  { v with snapshot := next, selection := World.firstSelection v.selectsRoot next }

/-- The view of a world's session. -/
def World.view {ι ω : Type} (w : World ι ω) : View :=
  { selectsRoot := w.session.selectsRoot
    snapshot := w.session.snapshot
    selection := w.session.selection
    isAnalyzing := w.session.isAnalyzing }

/-- Listeners, whether they fail or not, the parser service and the notes leave the session alone;
only those who listen may change. -/
structure Surroundings.Apart {ι ω : Type} (env : Surroundings ι ω) : Prop where
  notify : ∀ l n w, (env.notify l n w).view = w.view
  serve : ∀ text w, (env.serve text w).2.view = w.view
  note : ∀ n w, (env.note n w).view = w.view

namespace World

variable {ι ω : Type} {env : Surroundings ι ω}

/-! ## Telling the listeners -/

theorem fire_view (h : env.Apart) (e : Emitter ι) (n : Notice) (w : World ι ω) :
    (e.fire env.notify n w).view = w.view := by
  obtain ⟨id, listeners⟩ := e
  unfold Emitter.fire
  induction listeners generalizing w with
  | nil => rfl
  | cons l listeners ih => exact (ih _).trans (h.notify l.2 n w)

theorem announceSelection_view (h : env.Apart) (node : Option NodeKey) (w : World ι ω) :
    (w.announceSelection env node).view = w.view :=
  fire_view h _ _ w

theorem setAnalyzing_view (h : env.Apart) (running : Bool) (w : World ι ω) :
    (w.setAnalyzing env running).view = { w.view with isAnalyzing := running } :=
  fire_view h _ _ _

theorem replaceSnapshot_view (h : env.Apart) (make : Nat → Snapshot) (w : World ι ω) :
    (w.replaceSnapshot env make).view = w.view.replaced make :=
  announceSelection_view h _ _

/-! ## The steps of an analysis -/

theorem openAnalysis_view (h : env.Apart) (w : World ι ω) :
    (w.openAnalysis env).view = { w.view with isAnalyzing := true } :=
  (h.note _ _).trans (setAnalyzing_view h true w)

theorem failAnalysis_view (h : env.Apart) (source : Option String) (e : StageError) (w : World ι ω) :
    (w.failAnalysis env source e).view = w.view.replaced .blank := by
  unfold failAnalysis
  rw [replaceSnapshot_view h, h.note]

theorem finishAnalysis_view (h : env.Apart) (source : Option String) (p : Payload) (w : World ι ω) :
    (w.finishAnalysis env source p).2.view = w.view.replaced fun epoch => .ofPayload epoch source p :=
  (h.note _ _).trans (replaceSnapshot_view h _ w)

/-- With listeners that do not call back, the roots returned are those of the payload. -/
theorem finishAnalysis_roots (h : env.Apart) (source : Option String) (p : Payload) (w : World ι ω) :
    (w.finishAnalysis env source p).1 = (Forest.build p.nodes).roots := by
  have hview := replaceSnapshot_view h (fun epoch => Snapshot.ofPayload epoch source p) w
  exact congrArg (fun v : View => v.snapshot.forest.roots) hview

/-! ## The ends of an analysis -/

section

variable {w : World ι ω} (text : String) (source : Option String)

/-- An idle session admits an analysis. -/
theorem analyze_eq (hidle : w.view.isAnalyzing = false) :
    w.analyze env text source =
      let served := env.serve text (w.openAnalysis env)
      let settled := served.2.settleAnalysis env source served.1
      (settled.1, settled.2.setAnalyzing env false) := by
  have hbusy : ¬ w.session.isAnalyzing = true := fun hbusy => Bool.noConfusion (hbusy.symm.trans hidle)
  unfold analyze
  rw [if_neg hbusy]

/-- The parser service finds the session with the mark that its beginning set. -/
theorem served_view (henv : env.Apart) :
    (env.serve text (w.openAnalysis env)).2.view = { w.view with isAnalyzing := true } :=
  (henv.serve _ _).trans (openAnalysis_view henv w)

/-- The end of the analysis takes the mark back. -/
theorem unmarked_view (henv : env.Apart) {v : View} (hidle : v.isAnalyzing = false) {w : World ι ω}
    (hw : w.view = { v with isAnalyzing := true }) : (w.setAnalyzing env false).view = v := by
  rw [setAnalyzing_view henv, hw, ← hidle]

variable (henv : env.Apart) (hidle : w.view.isAnalyzing = false)

include henv hidle

/-- The forest of a payload is installed and its roots are returned. -/
theorem analyze_of_payload {p : Payload}
    (hp : payloadOf (env.serve text (w.openAnalysis env)).1 = .ok p) :
    (w.analyze env text source).1 = .ok (Forest.build p.nodes).roots ∧
      (w.analyze env text source).2.view = w.view.replaced fun epoch => .ofPayload epoch source p := by
  rw [analyze_eq text source hidle]
  unfold settleAnalysis
  simp only [hp]
  refine ⟨congrArg _ (finishAnalysis_roots henv source p _), unmarked_view henv ?_ ?_⟩
  · exact hidle
  · rw [finishAnalysis_view henv, served_view text henv]
    rfl

/-- A failure of a stage leaves an empty snapshot. -/
theorem analyze_of_stage {f : Failure} {e : StageError}
    (hf : payloadOf (env.serve text (w.openAnalysis env)).1 = .error f) (hstage : f.stage? = some e) :
    (w.analyze env text source).1 = .error f ∧
      (w.analyze env text source).2.view = w.view.replaced .blank := by
  rw [analyze_eq text source hidle]
  unfold settleAnalysis
  simp only [hf, hstage]
  refine ⟨trivial, unmarked_view henv ?_ ?_⟩
  · exact hidle
  · rw [failAnalysis_view henv, served_view text henv]
    rfl

/-- Any other failure leaves the snapshot and the selection that were there. -/
theorem analyze_of_break {f : Failure}
    (hf : payloadOf (env.serve text (w.openAnalysis env)).1 = .error f) (hstage : f.stage? = none) :
    (w.analyze env text source).1 = .error f ∧ (w.analyze env text source).2.view = w.view := by
  rw [analyze_eq text source hidle]
  unfold settleAnalysis
  simp only [hf, hstage]
  exact ⟨trivial, unmarked_view henv hidle (served_view text henv)⟩

end

end World
end ScriptTree.Analysis
