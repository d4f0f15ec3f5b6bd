/-
References to nodes over any run of a session, also from within its operations: listeners, the parser
service and the notes may use the session as they like while an operation is going on. A run is what
happens to the session, one change after the other, whoever brings it about (`World.after`), and every
operation amounts to such changes, among them the replacements of its own (`perform_amounts`). A
reference leads to its node until the next replacement and to nothing after that (`Lasting`).
-/
import ScriptTree.Proofs.Analysis.History

namespace ScriptTree.Analysis

/-! ## What happens to a session -/

/-- What happens to a session at one moment. -/
inductive Change (ι ω : Type) where
  /-- An analysis begins or ends. -/
  | mark (running : Bool)
  /-- The forest of a payload is installed. -/
  | install (source : Option String) (p : Payload)
  /-- The analysis is dropped. -/
  | drop
  /-- A node is selected, or none; a node that is not stored is not. -/
  | choose (node : Option NodeKey)
  /-- Those who listen change. -/
  | listeners (selection analyzing : Emitter ι)
  /-- The rest of the world changes. -/
  | meanwhile (rest : ω)

/-- The change replaces the snapshot. -/
def Change.replaces {ι ω : Type} : Change ι ω → Bool
  | .install _ _ => true
  | .drop => true
  | _ => false

/-- The number of snapshots replaced. -/
def replacedBy {ι ω : Type} (cs : List (Change ι ω)) : Nat :=
  cs.countP Change.replaces

namespace World

variable {ι ω : Type}

/-- The world with the snapshot replaced by one of the next epoch. -/
def installed (make : Nat → Snapshot) (w : World ι ω) : World ι ω :=
  let next := make (w.snapshot.epoch + 1)
  w.update fun s => { s with snapshot := next, selection := firstSelection s.selectsRoot next }

/-- The world after a change. -/
def change (w : World ι ω) : Change ι ω → World ι ω
  | .mark running => w.update fun s => { s with isAnalyzing := running }
  | .install source p => w.installed fun epoch => .ofPayload epoch source p
  | .drop => w.installed .blank
  | .choose node => if node.all w.snapshot.owns then w.update fun s => { s with selection := node } else w
  | .listeners selection analyzing =>
    w.update fun s => { s with selectionListeners := selection, analyzingListeners := analyzing }
  | .meanwhile rest => { w with rest }

/-- The world after some changes. -/
def after (w : World ι ω) (cs : List (Change ι ω)) : World ι ω :=
  cs.foldl change w

theorem after_append (w : World ι ω) (cs cs' : List (Change ι ω)) :
    w.after (cs ++ cs') = (w.after cs).after cs' :=
  List.foldl_append

/-! ## Epochs -/

/-- A change leaves the snapshot, or puts a sound one of the next epoch in its place. -/
theorem change_snapshot (w : World ι ω) (c : Change ι ω) :
    c.replaces = false ∧ (w.change c).snapshot = w.snapshot ∨
      c.replaces = true ∧ (w.change c).snapshot.epoch = w.snapshot.epoch + 1 ∧
        (w.change c).snapshot.Sound := by
  cases c with
  | install source p => exact .inr ⟨rfl, rfl, Snapshot.ofPayload_sound (Nat.succ_ne_zero _) source p⟩
  | drop => exact .inr ⟨rfl, rfl, Snapshot.blank_sound _⟩
  | choose node =>
    refine .inl ⟨rfl, ?_⟩
    simp only [change]
    split <;> rfl
  | _ => exact .inl ⟨rfl, rfl⟩

theorem after_sound {w : World ι ω} (h : w.snapshot.Sound) (cs : List (Change ι ω)) :
    (w.after cs).snapshot.Sound := by
  induction cs generalizing w with
  | nil => exact h
  | cons c cs ih =>
    refine ih ?_
    rcases change_snapshot w c with ⟨-, hsame⟩ | ⟨-, -, hsound⟩
    · rw [hsame]
      exact h
    · exact hsound

/-- Every replacement takes the next epoch. -/
theorem after_epoch (w : World ι ω) (cs : List (Change ι ω)) :
    (w.after cs).snapshot.epoch = w.snapshot.epoch + replacedBy cs := by
  induction cs generalizing w with
  | nil => rfl
  | cons c cs ih =>
    have hrest : (w.after (c :: cs)).snapshot.epoch = (w.change c).snapshot.epoch + replacedBy cs :=
      ih (w.change c)
    rw [hrest, replacedBy, replacedBy, List.countP_cons]
    rcases change_snapshot w c with ⟨hkept, hsame⟩ | ⟨hreplaced, hnext, -⟩
    · simp only [hsame, hkept, Bool.false_eq_true, if_false]
      omega
    · simp only [hnext, hreplaced, if_true]
      omega

theorem after_snapshot (w : World ι ω) {cs : List (Change ι ω)} (h : replacedBy cs = 0) :
    (w.after cs).snapshot = w.snapshot := by
  induction cs generalizing w with
  | nil => rfl
  | cons c cs ih =>
    rw [replacedBy, List.countP_cons] at h
    rcases change_snapshot w c with ⟨-, hsame⟩ | ⟨hreplaced, -⟩
    · exact (ih (w.change c) (Nat.add_eq_zero_iff.1 h).1).trans hsame
    · rw [hreplaced] at h
      exact absurd h (Nat.succ_ne_zero _)

/-! ## References -/

/-- References last as long as their analysis is the current one. -/
structure Lasting (w : World ι ω) : Prop where
  /-- There is a reference to exactly the nodes that the current index stores. -/
  refused : ∀ k f, w.ref k = .error f ↔ f = .foreignNode ∧ ¬ w.snapshot.Stores k
  /-- A reference leads to the node that is stored, whatever happens, until the first replacement, and
  never to anything after that. -/
  kept : ∀ k r, w.ref k = .ok r → ∃ t, w.snapshot.key t = k ∧ w.snapshot.find? k.hash = some t ∧
    ∀ cs, (w.after cs).resolve r = if replacedBy cs = 0 then some t else none
  /-- What a reference leads to is the node of its own epoch. -/
  own : ∀ r t, w.resolve r = some t → w.snapshot.key t = r

theorem lasting_of_sound {w : World ι ω} (h : w.snapshot.Sound) : Lasting w where
  refused k f := by
    unfold ref
    by_cases hk : w.snapshot.Stores k
    · rw [if_pos ((Snapshot.owns_iff h k).2 hk)]
      exact ⟨nofun, fun ⟨_, hnot⟩ => absurd hk hnot⟩
    · rw [if_neg fun howns => hk ((Snapshot.owns_iff h k).1 howns)]
      exact ⟨fun heq => ⟨(Except.error.inj heq).symm, hk⟩, fun ⟨heq, _⟩ => congrArg _ heq.symm⟩
  kept k r hr := by
    unfold ref at hr
    split at hr
    · rename_i howns
      obtain ⟨hepoch, t, ht, hhash⟩ := (Snapshot.owns_iff h k).1 howns
      cases hr
      refine ⟨t, by rw [Snapshot.key, ← hepoch, hhash], ht, fun cs => ?_⟩
      unfold resolve Snapshot.resolve?
      by_cases hcs : replacedBy cs = 0
      · rw [if_pos hcs, after_snapshot w hcs, if_pos rfl]
        exact ht
      · rw [if_neg hcs, if_neg]
        rw [after_epoch]
        exact fun heq => hcs (Nat.left_eq_add.1 heq)
    · cases hr
  own r t ht := by
    unfold resolve Snapshot.resolve? at ht
    split at ht
    · rename_i hepoch
      rw [Snapshot.key, h.hash _ t ht, ← hepoch]
    · cases ht

/-! ## What operations amount to -/

/-- The world has become the other by some changes, `n` of which at least replaced the snapshot, and no
more than these if it was quiet besides. -/
def Amounts (quiet : Prop) (n : Nat) (w w' : World ι ω) : Prop :=
  ∃ cs : List (Change ι ω), w' = w.after cs ∧ n ≤ replacedBy cs ∧ (quiet → replacedBy cs = n)

end World

/-- Listeners, the parser service and the notes act on the session only as it lets them, and if it is
quiet they replace no snapshot. -/
structure Surroundings.ActsBy {ι ω : Type} (env : Surroundings ι ω) (quiet : Prop) : Prop where
  notify : ∀ l n w, World.Amounts quiet 0 w (env.notify l n w)
  serve : ∀ text w, World.Amounts quiet 0 w (env.serve text w).2
  note : ∀ n w, World.Amounts quiet 0 w (env.note n w)

namespace World

variable {ι ω : Type} {quiet : Prop} {n m : Nat} {w w' w'' : World ι ω}

theorem Amounts.refl (quiet : Prop) (w : World ι ω) : Amounts quiet 0 w w :=
  ⟨[], rfl, le_refl _, fun _ => rfl⟩

theorem Amounts.trans (h : Amounts quiet n w w') (h' : Amounts quiet m w' w'') :
    Amounts quiet (n + m) w w'' := by
  obtain ⟨cs, rfl, hle, hquiet⟩ := h
  obtain ⟨cs', rfl, hle', hquiet'⟩ := h'
  have hcount : replacedBy (cs ++ cs') = replacedBy cs + replacedBy cs' := List.countP_append
  refine ⟨cs ++ cs', (after_append w cs cs').symm, ?_, fun hq => ?_⟩
  · rw [hcount]
    exact Nat.add_le_add hle hle'
  · rw [hcount, hquiet hq, hquiet' hq]

theorem amounts_change (quiet : Prop) (w : World ι ω) (c : Change ι ω) :
    Amounts quiet (if c.replaces then 1 else 0) w (w.change c) :=
  ⟨[c], rfl, List.countP_singleton.ge, fun _ => List.countP_singleton⟩

variable {env : Surroundings ι ω} (henv : env.ActsBy quiet)

include henv

theorem fire_amounts (e : Emitter ι) (notice : Notice) (w : World ι ω) :
    Amounts quiet 0 w (e.fire env.notify notice w) := by
  obtain ⟨id, listeners⟩ := e
  unfold Emitter.fire
  induction listeners generalizing w with
  | nil => exact .refl quiet w
  | cons l listeners ih => exact (henv.notify l.2 notice w).trans (ih _)

theorem setAnalyzing_amounts (running : Bool) (w : World ι ω) :
    Amounts quiet 0 w (w.setAnalyzing env running) :=
  (amounts_change quiet w (.mark running)).trans (fire_amounts henv _ _ _)

theorem openAnalysis_amounts (w : World ι ω) : Amounts quiet 0 w (w.openAnalysis env) :=
  (setAnalyzing_amounts henv true w).trans (henv.note _ _)

theorem clear_amounts (w : World ι ω) : Amounts quiet 1 w (w.clear env) :=
  (amounts_change quiet w .drop).trans (fire_amounts henv _ _ _)

theorem failAnalysis_amounts (source : Option String) (e : StageError) (w : World ι ω) :
    Amounts quiet 1 w (w.failAnalysis env source e) := by
  have h := (henv.note (.event (.analysisError source e.stage e.message env.latency)) w).trans
    (clear_amounts henv _)
  exact h

theorem finishAnalysis_amounts (source : Option String) (p : Payload) (w : World ι ω) :
    Amounts quiet 1 w (w.finishAnalysis env source p).2 :=
  ((amounts_change quiet w (.install source p)).trans (fire_amounts henv _ _ _)).trans (henv.note _ _)

/-- A forest or a failure of a stage replaces the snapshot, any other failure does not. -/
theorem settleAnalysis_amounts (source : Option String) (outcome : Except Failure String) (w : World ι ω) :
    Amounts quiet (replacements (w.settleAnalysis env source outcome).1) w
      (w.settleAnalysis env source outcome).2 := by
  unfold settleAnalysis
  split
  · exact finishAnalysis_amounts henv source _ w
  · rename_i f _
    cases hstage : f.stage? with
    | some e =>
      simp only [replacements, hstage, Option.isSome_some, if_true]
      exact failAnalysis_amounts henv source e w
    | none =>
      simp only [replacements, hstage, Option.isSome_none, Bool.false_eq_true, if_false]
      exact .refl quiet w

/-- An analysis that is asked for while another one is running changes nothing. -/
theorem analyze_amounts (text : String) (source : Option String) (w : World ι ω) :
    Amounts quiet (if w.session.isAnalyzing then 0 else replacements (w.analyze env text source).1) w
      (w.analyze env text source).2 := by
  unfold analyze
  split
  · exact .refl quiet w
  · have hserved := (openAnalysis_amounts henv w).trans (henv.serve text _)
    have hsettled := hserved.trans (settleAnalysis_amounts henv source (env.serve text (w.openAnalysis env)).1 _)
    have hended := hsettled.trans (setAnalyzing_amounts henv false _)
    rw [Nat.zero_add, Nat.add_zero] at hended
    exact hended

theorem select_amounts (node : Option NodeKey) (w : World ι ω) :
    Amounts quiet 0 w (w.select env node).2 := by
  have hchosen := amounts_change quiet w (.choose node)
  unfold change at hchosen
  unfold select
  split
  · rename_i howns
    simp only [howns, if_true] at hchosen
    exact hchosen.trans (fire_amounts henv _ _ _)
  · exact .refl quiet w

theorem selectAt_amounts (line column : Int) (w : World ι ω) :
    Amounts quiet 0 w (w.selectAt env line column).2 := by
  unfold selectAt
  split
  · exact .refl quiet w
  · rename_i t _
    have hselected := select_amounts henv (some (w.snapshot.key t)) w
    cases hresult : w.select env (some (w.snapshot.key t)) with
    | mk result w' =>
      rw [hresult] at hselected
      cases result <;> exact hselected

omit henv

/-- The world after an operation. -/
def perform (env : Surroundings ι ω) (w : World ι ω) (o : Operation ι ω) : World ι ω :=
  (History.step env ⟨w, 0⟩ o).world

/-- The replacements that an operation makes itself: an analysis makes one if it succeeds or fails in one
of its stages, unless it is refused since another one is running, and so does dropping the analysis. -/
def ownReplacements (env : Surroundings ι ω) (w : World ι ω) : Operation ι ω → Nat
  | .analyze text source =>
    if w.session.isAnalyzing then 0 else replacements (w.analyze env text source).1
  | .analyzeFile files home path =>
    if w.session.isAnalyzing || !(files.readText path).isOk then 0
    else replacements (w.analyzeFile env files home path).1
  | .clear => 1
  | _ => 0

include henv

theorem analyzeFile_amounts (files : FileStore) (home : String) (path : Path) (w : World ι ω) :
    Amounts quiet (ownReplacements env w (.analyzeFile files home path)) w
      (w.analyzeFile env files home path).2 := by
  unfold ownReplacements analyzeFile
  dsimp only
  cases hread : files.readText path with
  | ok text =>
    have h := analyze_amounts henv text (some (path.absolute home)) w
    simpa [Except.isOk, Except.toBool] using h
  | error fault =>
    simp only [Except.isOk, Except.toBool, Bool.not_false, Bool.or_true, if_true]
    split <;> first | exact .refl quiet w | contradiction

theorem perform_amounts (w : World ι ω) (o : Operation ι ω) :
    Amounts quiet (ownReplacements env w o) w (w.perform env o) := by
  cases o with
  | analyze text source => exact analyze_amounts henv text source w
  | analyzeFile files home path => exact analyzeFile_amounts henv files home path w
  | clear => exact clear_amounts henv w
  | select node => exact select_amounts henv node w
  | selectAt line column => exact selectAt_amounts henv line column w
  | locate line column => exact .refl quiet w
  | ref node => exact .refl quiet w
  | resolve node => exact .refl quiet w
  | listen forSelections l => cases forSelections <;> exact amounts_change quiet w (.listeners _ _)
  | leave forSelections id => cases forSelections <;> exact amounts_change quiet w (.listeners _ _)
  | meanwhile rest => exact amounts_change quiet w (.meanwhile rest)

omit henv

/-- The world after some operations. -/
def performAll (env : Surroundings ι ω) (w : World ι ω) (operations : List (Operation ι ω)) : World ι ω :=
  operations.foldl (perform env) w

/-- The replacements that some operations make themselves. -/
def ownReplacementsAll (env : Surroundings ι ω) : World ι ω → List (Operation ι ω) → Nat
  | _, [] => 0
  | w, o :: operations => ownReplacements env w o + ownReplacementsAll env (w.perform env o) operations

include henv

theorem performAll_amounts (w : World ι ω) (operations : List (Operation ι ω)) :
    Amounts quiet (ownReplacementsAll env w operations) w (w.performAll env operations) := by
  induction operations generalizing w with
  | nil => exact .refl quiet w
  | cons o operations ih => exact (perform_amounts henv w o).trans (ih (w.perform env o))

/-- At any point of a run, also from within an operation, references last as long as their analysis is
the current one, and whatever is asked of the session next amounts to changes as they make up a run. -/
theorem run_references (selectsRoot : Bool) (rest : ω) (cs : List (Change ι ω)) :
    let w := World.after ⟨.new selectsRoot, rest⟩ cs
    Lasting w ∧ ∀ operations, Amounts quiet (ownReplacementsAll env w operations) w
      (w.performAll env operations) := by
  have hnew : (⟨.new selectsRoot, rest⟩ : World ι ω).snapshot.Sound := Snapshot.blank_sound 0
  exact ⟨lasting_of_sound (after_sound hnew cs), fun operations => performAll_amounts henv _ operations⟩

omit henv

/-- A listener drops the analysis as soon as its root is selected. A reference taken before that leads to
the root until the session is cleared, and to nothing after that. -/
theorem run_references_cleared_meanwhile :
    let still : Surroundings String Unit :=
      { notify := fun _ _ w => w, serve := fun text w => (.ok text, w), note := fun _ w => w
        release := id, latency := 0 }
    let env := { still with
      notify := fun _ notice w => if notice = .selection (some ⟨1, 7⟩) then w.clear still else w }
    let node : Node :=
      { hash := 7, parent := none, kind := "", text := "", extent := "", startLine := 0, startColumn := 0
        endLine := 0, endColumn := 0, textLength := 0, properties := [], id := "" }
    let w : World String Unit := after ⟨.new true, ()⟩ [.install none ⟨[node], [], 0⟩]
    env.ActsBy False ∧ Lasting w ∧ w.ref ⟨1, 7⟩ = .ok ⟨1, 7⟩ ∧ (w.resolve ⟨1, 7⟩).isSome ∧
      ∀ text, (w.performAll env [.clear, .analyze text none]).resolve ⟨1, 7⟩ = none := by
  intro still env node w
  have hstill : ∀ quiet, still.ActsBy quiet :=
    fun quiet => ⟨fun _ _ w => .refl quiet w, fun _ w => .refl quiet w, fun _ w => .refl quiet w⟩
  have henv : env.ActsBy False := by
    refine ⟨fun _ notice w => ?_, fun _ w => .refl False w, fun _ w => .refl False w⟩
    show Amounts False 0 w (if notice = _ then _ else _)
    split
    · obtain ⟨cs, heq, -, -⟩ := clear_amounts (hstill False) w
      exact ⟨cs, heq, Nat.zero_le _, False.elim⟩
    · exact .refl False w
  obtain ⟨hlasting, hamounts⟩ := run_references henv true () [.install none ⟨[node], [], 0⟩]
  have href : w.ref ⟨1, 7⟩ = .ok ⟨1, 7⟩ := by cbv
  obtain ⟨t, -, -, hafter⟩ := hlasting.kept _ _ href
  have hbefore : w.resolve ⟨1, 7⟩ = some t := hafter []
  refine ⟨henv, hlasting, href, hbefore ▸ rfl, fun text => ?_⟩
  obtain ⟨cs, heq, hle, -⟩ := hamounts [.clear, .analyze text none]
  have hcleared : 1 ≤ replacedBy cs := (Nat.le_add_right 1 _).trans hle
  rw [heq, hafter cs, if_neg (Nat.one_le_iff_ne_zero.1 hcleared)]

end World
end ScriptTree.Analysis
