/-
Those who listen to a session. What a listener does is a program (`Conduct`): it may act on the rest of the
world, look at the session, fail, and ask for an analysis while one is running. Such a request is refused
before anything happens, so a program comes down to what it makes of the rest of the world (`run_snd`), in
which neither its requests nor its failures are seen. Deliveries are recorded with the session as it is
when they are made; each step of an analysis adds to the record what it tells (`Adds`), and together they
give its course (`analyze_course`).
-/
import ScriptTree.Proofs.Analysis.Emitter
import ScriptTree.Proofs.Analysis.Payload

namespace ScriptTree.Analysis

/-! ## Listeners -/

/-- What a listener does when it is told something. -/
inductive Conduct (ω : Type) where
  | done
  | fails (why : Failure)
  | act (change : ω → ω) (next : Conduct ω)
  | look (next : View → ω → Conduct ω)
  /-- Asks for an analysis if one is running, and goes on with the answer. -/
  | ask (text : String) (source : Option String) (next : Option (Except Failure (List Tree)) → Conduct ω)

/-- That a listener is told something, with the session as it is then. -/
structure Delivery (ι : Type) where
  listener : ι
  notice : Notice
  view : View

/-- The rest of a world in which deliveries are recorded, the latest last. -/
structure Recorded (ι ω : Type) where
  rest : ω
  deliveries : List (Delivery ι)

variable {ι ω : Type}

/-- Records a delivery. -/
def World.record (l : ι) (n : Notice) (w : World ι (Recorded ι ω)) : World ι (Recorded ι ω) :=
  { w with rest := { w.rest with deliveries := w.rest.deliveries ++ [⟨l, n, w.view⟩] } }

namespace Conduct

/-- Runs a listener's program. -/
def run (env : Surroundings ι (Recorded ι ω)) :
    Conduct ω → World ι (Recorded ι ω) → Except Failure Unit × World ι (Recorded ι ω)
  | .done, w => (.ok (), w)
  | .fails why, w => (.error why, w)
  | .act change next, w => next.run env { w with rest := { w.rest with rest := change w.rest.rest } }
  | .look next, w => (next w.view w.rest.rest).run env w
  | .ask text source next, w =>
    if w.session.isAnalyzing then
      let (answer, w) := w.analyze env text source
      (next (some answer)).run env w
    else (next none).run env w

/-- What a program makes of the rest of the world, its requests being refused. -/
def effect : Conduct ω → View → ω → ω
  | .done, _, rest => rest
  | .fails _, _, rest => rest
  | .act change next, v, rest => next.effect v (change rest)
  | .look next, v, rest => (next v rest).effect v rest
  | .ask _ _ next, v, rest =>
    (next (if v.isAnalyzing then some (.error .inProgress) else none)).effect v rest

/-- The program without its requests and its failures: it goes on as if it had been refused, and ends
where it would have failed. -/
def quiet : Conduct ω → Conduct ω
  | .done => .done
  | .fails _ => .done
  | .act change next => .act change next.quiet
  | .look next => .look fun v rest => (next v rest).quiet
  | .ask _ _ next =>
    .look fun v _ => (next (if v.isAnalyzing then some (.error .inProgress) else none)).quiet

theorem effect_quiet (p : Conduct ω) (v : View) (rest : ω) : p.quiet.effect v rest = p.effect v rest := by
  induction p generalizing rest with
  | done => rfl
  | fails why => rfl
  | act change next ih => exact ih (change rest)
  | look next ih => exact ih v rest rest
  | ask text source next ih => exact ih _ rest

end Conduct

namespace World

/-- While an analysis is running another one is refused: nothing is told and nothing changes. -/
theorem analyze_busy {env : Surroundings ι ω} {w : World ι ω} (hbusy : w.session.isAnalyzing = true)
    (text : String) (source : Option String) : w.analyze env text source = (.error .inProgress, w) := by
  unfold analyze
  rw [if_pos hbusy]

end World

/-- A program changes the rest of the world only, in the same way in all surroundings. -/
theorem Conduct.run_snd (env : Surroundings ι (Recorded ι ω)) (p : Conduct ω)
    (w : World ι (Recorded ι ω)) :
    (p.run env w).2 = { w with rest := { w.rest with rest := p.effect w.view w.rest.rest } } := by
  induction p generalizing w with
  | done => rfl
  | fails why => rfl
  | act change next ih => exact ih _
  | look next ih => exact ih _ _ w
  | ask text source next ih =>
    unfold run effect
    by_cases hbusy : w.session.isAnalyzing = true
    · have hview : w.view.isAnalyzing = true := hbusy
      rw [if_pos hbusy, World.analyze_busy hbusy, if_pos hview]
      exact ih _ w
    · have hview : ¬ w.view.isAnalyzing = true := hbusy
      rw [if_neg hbusy, if_neg hview]
      exact ih _ w

/-! ## Surroundings with listeners -/

namespace Surroundings

/-- The listeners run their programs, and the deliveries to them are recorded; the parser service and the
notes leave the session and the record alone. -/
structure Observed (env : Surroundings ι (Recorded ι ω)) (conduct : ι → Notice → Conduct ω) : Prop where
  notify : ∀ l n w, env.notify l n w = Emitter.attempt ((conduct l n).run env) (w.record l n)
  serve : ∀ text w, (env.serve text w).2.session = w.session ∧
    (env.serve text w).2.rest.deliveries = w.rest.deliveries
  note : ∀ n w, (env.note n w).session = w.session ∧ (env.note n w).rest.deliveries = w.rest.deliveries

variable {env : Surroundings ι (Recorded ι ω)} {conduct : ι → Notice → Conduct ω}

/-- What comes of a delivery. -/
theorem Observed.notify_eq (h : env.Observed conduct) (l : ι) (n : Notice) (w : World ι (Recorded ι ω)) :
    env.notify l n w = { w with rest :=
      { rest := (conduct l n).effect w.view w.rest.rest
        deliveries := w.rest.deliveries ++ [⟨l, n, w.view⟩] } } := by
  rw [h.notify, Emitter.attempt_eq, Conduct.run_snd]
  rfl

theorem view_of_session {w w' : World ι ω} (h : w'.session = w.session) : w'.view = w.view := by
  unfold World.view
  rw [h]

theorem Observed.apart (h : env.Observed conduct) : env.Apart where
  notify l n w := by
    rw [h.notify_eq]
    rfl
  serve text w := view_of_session (h.serve text w).1
  note n w := view_of_session (h.note n w).1

/-- Surroundings whose listeners run the given programs. -/
def ofConduct (base : Surroundings ι (Recorded ι ω)) (conduct : ι → Notice → Conduct ω) :
    Surroundings ι (Recorded ι ω) :=
  { base with notify := fun l n w => { w with rest :=
      { rest := (conduct l n).effect w.view w.rest.rest
        deliveries := w.rest.deliveries ++ [⟨l, n, w.view⟩] } } }

theorem ofConduct_observed {base : Surroundings ι (Recorded ι ω)}
    (hserve : ∀ text w, (base.serve text w).2.session = w.session ∧
      (base.serve text w).2.rest.deliveries = w.rest.deliveries)
    (hnote : ∀ n w, (base.note n w).session = w.session ∧
      (base.note n w).rest.deliveries = w.rest.deliveries) (conduct : ι → Notice → Conduct ω) :
    (base.ofConduct conduct).Observed conduct where
  notify l n w := by
    rw [Emitter.attempt_eq, Conduct.run_snd]
    rfl
  serve := hserve
  note := hnote

/-- Surroundings that differ in their listeners only, and in these only in what they ask for and whether
they fail, are the same. -/
theorem Observed.eq_of_quiet {env' : Surroundings ι (Recorded ι ω)} {conduct' : ι → Notice → Conduct ω}
    (h : env.Observed conduct) (h' : env'.Observed conduct')
    (hsame : env' = { env with notify := env'.notify })
    (hquiet : ∀ l n, (conduct' l n).quiet = (conduct l n).quiet) : env' = env := by
  have hnotify : env'.notify = env.notify := by
    funext l n w
    rw [h.notify_eq, h'.notify_eq, ← Conduct.effect_quiet, hquiet, Conduct.effect_quiet]
  rw [hsame, hnotify]

end Surroundings

/-! ## What is told -/

/-- The deliveries of a notice to the listeners of an emitter. -/
def Emitter.told (e : Emitter ι) (n : Notice) (v : View) : List (Delivery ι) :=
  e.listeners.map fun l => ⟨l.2, n, v⟩

/-- Between two worlds some deliveries were recorded, and those who listen are the same. -/
structure Adds (added : List (Delivery ι)) (w w' : World ι (Recorded ι ω)) : Prop where
  deliveries : w'.rest.deliveries = w.rest.deliveries ++ added
  selectionListeners : w'.session.selectionListeners = w.session.selectionListeners
  analyzingListeners : w'.session.analyzingListeners = w.session.analyzingListeners

theorem Adds.trans {xs ys : List (Delivery ι)} {w w' w'' : World ι (Recorded ι ω)} (h : Adds xs w w')
    (h' : Adds ys w' w'') : Adds (xs ++ ys) w w'' where
  deliveries := by rw [h'.deliveries, h.deliveries, List.append_assoc]
  selectionListeners := h'.selectionListeners.trans h.selectionListeners
  analyzingListeners := h'.analyzingListeners.trans h.analyzingListeners

/-- What leaves the session and the record alone adds nothing. -/
theorem Adds.of_kept {w w' : World ι (Recorded ι ω)}
    (h : w'.session = w.session ∧ w'.rest.deliveries = w.rest.deliveries) : Adds [] w w' where
  deliveries := by rw [h.2, List.append_nil]
  selectionListeners := by rw [h.1]
  analyzingListeners := by rw [h.1]

namespace World

variable {env : Surroundings ι (Recorded ι ω)} {conduct : ι → Notice → Conduct ω}

/-- Firing tells every listener of the emitter once, in order, and none changes what the next one sees. -/
theorem fire_adds (h : env.Observed conduct) (e : Emitter ι) (n : Notice) (w : World ι (Recorded ι ω)) :
    Adds (e.told n w.view) w (e.fire env.notify n w) := by
  obtain ⟨id, listeners⟩ := e
  unfold Emitter.fire Emitter.told
  dsimp only
  induction listeners generalizing w with
  | nil => exact .of_kept ⟨rfl, rfl⟩
  | cons l listeners ih =>
    rw [List.foldl_cons, List.map_cons, ← List.singleton_append]
    have hfirst : Adds [⟨l.2, n, w.view⟩] w (env.notify l.2 n w) := by
      rw [h.notify_eq]
      exact ⟨rfl, rfl, rfl⟩
    have hrest := ih (env.notify l.2 n w)
    rw [h.apart.notify] at hrest
    exact hfirst.trans hrest

theorem setAnalyzing_adds (h : env.Observed conduct) (running : Bool) (w : World ι (Recorded ι ω)) :
    Adds (w.session.analyzingListeners.told (.analyzing running) { w.view with isAnalyzing := running }) w
      (w.setAnalyzing env running) := by
  have hfire := fire_adds h w.session.analyzingListeners (.analyzing running)
    (w.update fun s => { s with isAnalyzing := running })
  exact ⟨hfire.deliveries, hfire.selectionListeners, hfire.analyzingListeners⟩

theorem replaceSnapshot_adds (h : env.Observed conduct) (make : Nat → Snapshot)
    (w : World ι (Recorded ι ω)) :
    Adds (w.session.selectionListeners.told (.selection (w.view.replaced make).selection)
      (w.view.replaced make)) w (w.replaceSnapshot env make) := by
  have hfire := fire_adds h w.session.selectionListeners (.selection (w.view.replaced make).selection)
    (w.update fun s =>
      { s with snapshot := make (w.snapshot.epoch + 1), selection := (w.view.replaced make).selection })
  exact ⟨hfire.deliveries, hfire.selectionListeners, hfire.analyzingListeners⟩

/-! ## The steps of an analysis -/

/-- Those who listen for analyses are told of the beginning before the parser service is called. -/
theorem served_adds (h : env.Observed conduct) (text : String) (w : World ι (Recorded ι ω)) :
    Adds (w.session.analyzingListeners.told (.analyzing true) { w.view with isAnalyzing := true }) w
      (env.serve text (w.openAnalysis env)).2 := by
  have hnote : Adds [] _ (w.openAnalysis env) := .of_kept (h.note _ _)
  have hserve : Adds [] _ (env.serve text (w.openAnalysis env)).2 := .of_kept (h.serve _ _)
  have hall := ((setAnalyzing_adds h true w).trans hnote).trans hserve
  rwa [List.append_nil, List.append_nil] at hall

theorem finishAnalysis_adds (h : env.Observed conduct) (source : Option String) (p : Payload)
    (w : World ι (Recorded ι ω)) :
    Adds (w.session.selectionListeners.told
      (.selection (w.view.replaced fun epoch => .ofPayload epoch source p).selection)
      (w.view.replaced fun epoch => .ofPayload epoch source p)) w (w.finishAnalysis env source p).2 := by
  have hnote : Adds [] _ (w.finishAnalysis env source p).2 := .of_kept (h.note _ _)
  have hall := (replaceSnapshot_adds h (fun epoch => .ofPayload epoch source p) w).trans hnote
  rwa [List.append_nil] at hall

theorem failAnalysis_adds (h : env.Observed conduct) (source : Option String) (e : StageError)
    (w : World ι (Recorded ι ω)) :
    Adds (w.session.selectionListeners.told (.selection none) (w.view.replaced .blank)) w
      (w.failAnalysis env source e) := by
  have hblank (v : View) : (v.replaced .blank).selection = none := by
    unfold View.replaced firstSelection
    dsimp only
    split <;> rfl
  have hnote : Adds [] w (env.note (.event (.analysisError source e.stage e.message env.latency)) w) :=
    .of_kept (h.note _ _)
  have hall := hnote.trans (replaceSnapshot_adds h .blank _)
  rwa [h.apart.note, hblank, hnote.selectionListeners, List.nil_append] at hall

/-! ## The course of an analysis -/

/-- What a whole analysis tells on a world: its beginning, something in between, and its end, when the
session looks as given. -/
def around (w : World ι (Recorded ι ω)) (between : List (Delivery ι)) (v : View) : List (Delivery ι) :=
  w.session.analyzingListeners.told (.analyzing true) { w.view with isAnalyzing := true } ++ between ++
    w.session.analyzingListeners.told (.analyzing false) v

/-- How an analysis of an idle session goes, by what the parser service returns. -/
structure Course (env : Surroundings ι (Recorded ι ω)) (text : String) (source : Option String)
    (w : World ι (Recorded ι ω)) : Prop where
  idle : (w.analyze env text source).2.session.isAnalyzing = false
  selectionListeners : (w.analyze env text source).2.session.selectionListeners = w.session.selectionListeners
  analyzingListeners : (w.analyze env text source).2.session.analyzingListeners = w.session.analyzingListeners
  /-- With a payload the new snapshot is there when its first root is told, if one is to be selected. -/
  succeeded : ∀ p, payloadOf (env.serve text (w.openAnalysis env)).1 = .ok p →
    let v := w.view.replaced fun epoch => .ofPayload epoch source p
    let first := if w.session.selectsRoot then (Forest.build p.nodes).roots.head?.map v.snapshot.key else none
    (w.analyze env text source).1 = .ok (Forest.build p.nodes).roots ∧
      (w.analyze env text source).2.view = v ∧
      (w.analyze env text source).2.rest.deliveries = w.rest.deliveries ++ w.around
        (w.session.selectionListeners.told (.selection first) { v with isAnalyzing := true }) v
  /-- When a stage fails the empty snapshot is there when it is told that nothing is selected. -/
  failed : ∀ f e, payloadOf (env.serve text (w.openAnalysis env)).1 = .error f → f.stage? = some e →
    let v := w.view.replaced .blank
    (w.analyze env text source).1 = .error f ∧ (w.analyze env text source).2.view = v ∧
      (w.analyze env text source).2.rest.deliveries = w.rest.deliveries ++ w.around
        (w.session.selectionListeners.told (.selection none) { v with isAnalyzing := true }) v
  /-- After any other failure nothing is told between the beginning and the end. -/
  broken : ∀ f, payloadOf (env.serve text (w.openAnalysis env)).1 = .error f → f.stage? = none →
    (w.analyze env text source).1 = .error f ∧ (w.analyze env text source).2.view = w.view ∧
      (w.analyze env text source).2.rest.deliveries = w.rest.deliveries ++ w.around [] w.view

section

variable (h : env.Observed conduct) (text : String) (source : Option String)
  {w : World ι (Recorded ι ω)} (hidle : w.session.isAnalyzing = false)

include h hidle

/-- An analysis tells what its middle tells, between its beginning and its end. -/
theorem analyze_adds {between : List (Delivery ι)} {v : View}
    (hmiddle : let served := env.serve text (w.openAnalysis env)
      Adds between served.2 (served.2.settleAnalysis env source served.1).2)
    (hview : (w.analyze env text source).2.view = v) :
    Adds (w.around between v) w (w.analyze env text source).2 := by
  have hend := setAnalyzing_adds h false
    ((env.serve text (w.openAnalysis env)).2.settleAnalysis env source (env.serve text (w.openAnalysis env)).1).2
  have hbefore := (served_adds h text w).trans hmiddle
  rw [analyze_eq text source hidle] at hview ⊢
  have hlast : { ((env.serve text (w.openAnalysis env)).2.settleAnalysis env source
      (env.serve text (w.openAnalysis env)).1).2.view with isAnalyzing := false } = v :=
    (setAnalyzing_view h.apart false _).symm.trans hview
  rw [hlast, hbefore.analyzingListeners] at hend
  exact hbefore.trans hend

theorem analyze_adds_of_payload {p : Payload}
    (hp : payloadOf (env.serve text (w.openAnalysis env)).1 = .ok p) :
    let v := w.view.replaced fun epoch => .ofPayload epoch source p
    Adds (w.around
        (w.session.selectionListeners.told (.selection v.selection) { v with isAnalyzing := true }) v)
      w (w.analyze env text source).2 := by
  refine analyze_adds h text source hidle ?_ (analyze_of_payload text source h.apart hidle hp).2
  have hfinish := finishAnalysis_adds h source p (env.serve text (w.openAnalysis env)).2
  rw [served_view text h.apart, (served_adds h text w).selectionListeners] at hfinish
  dsimp only
  unfold settleAnalysis
  rw [hp]
  exact hfinish

theorem analyze_adds_of_stage {f : Failure} {e : StageError}
    (hf : payloadOf (env.serve text (w.openAnalysis env)).1 = .error f) (hstage : f.stage? = some e) :
    let v := w.view.replaced .blank
    Adds (w.around (w.session.selectionListeners.told (.selection none) { v with isAnalyzing := true }) v)
      w (w.analyze env text source).2 := by
  refine analyze_adds h text source hidle ?_ (analyze_of_stage text source h.apart hidle hf hstage).2
  have hfail := failAnalysis_adds h source e (env.serve text (w.openAnalysis env)).2
  rw [served_view text h.apart, (served_adds h text w).selectionListeners] at hfail
  dsimp only
  unfold settleAnalysis
  simp only [hf, hstage]
  exact hfail

theorem analyze_adds_of_break {f : Failure}
    (hf : payloadOf (env.serve text (w.openAnalysis env)).1 = .error f) (hstage : f.stage? = none) :
    Adds (w.around [] w.view) w (w.analyze env text source).2 := by
  refine analyze_adds h text source hidle ?_ (analyze_of_break text source h.apart hidle hf hstage).2
  dsimp only
  unfold settleAnalysis
  simp only [hf, hstage]
  exact .of_kept ⟨rfl, rfl⟩

/-- However an analysis ends, the mark is taken back and those who listen are the same. -/
theorem analyze_restores : (w.analyze env text source).2.session.isAnalyzing = false ∧
    ∃ added, Adds added w (w.analyze env text source).2 := by
  have hmark {v : View} (hview : (w.analyze env text source).2.view = v) (hv : v.isAnalyzing = false) :
      (w.analyze env text source).2.session.isAnalyzing = false :=
    (congrArg View.isAnalyzing hview).trans hv
  cases hserved : payloadOf (env.serve text (w.openAnalysis env)).1 with
  | ok p =>
    exact ⟨hmark (analyze_of_payload text source h.apart hidle hserved).2 hidle,
      _, analyze_adds_of_payload h text source hidle hserved⟩
  | error f =>
    cases hstage : f.stage? with
    | some e =>
      exact ⟨hmark (analyze_of_stage text source h.apart hidle hserved hstage).2 hidle,
        _, analyze_adds_of_stage h text source hidle hserved hstage⟩
    | none =>
      exact ⟨hmark (analyze_of_break text source h.apart hidle hserved hstage).2 hidle,
        _, analyze_adds_of_break h text source hidle hserved hstage⟩

theorem analyze_course : Course env text source w where
  idle := (analyze_restores h text source hidle).1
  selectionListeners := by
    obtain ⟨added, hadds⟩ := (analyze_restores h text source hidle).2
    exact hadds.selectionListeners
  analyzingListeners := by
    obtain ⟨added, hadds⟩ := (analyze_restores h text source hidle).2
    exact hadds.analyzingListeners
  succeeded p hp := by
    obtain ⟨hresult, hview⟩ := analyze_of_payload text source h.apart hidle hp
    exact ⟨hresult, hview, (analyze_adds_of_payload h text source hidle hp).deliveries⟩
  failed f e hf hstage := by
    obtain ⟨hresult, hview⟩ := analyze_of_stage text source h.apart hidle hf hstage
    exact ⟨hresult, hview, (analyze_adds_of_stage h text source hidle hf hstage).deliveries⟩
  broken f hf hstage := by
    obtain ⟨hresult, hview⟩ := analyze_of_break text source h.apart hidle hf hstage
    exact ⟨hresult, hview, (analyze_adds_of_break h text source hidle hf hstage).deliveries⟩

end

/-- What observers see of an analysis. While one is running another one is refused and nothing happens;
otherwise it has its course. With listeners that neither ask for analyses nor fail, but do the same apart
from that, it returns the same and leaves the same world. -/
theorem analyze_observed (h : env.Observed conduct) (text : String) (source : Option String)
    (w : World ι (Recorded ι ω)) :
    (w.session.isAnalyzing = true → w.analyze env text source = (.error .inProgress, w)) ∧
      (w.session.isAnalyzing = false → Course env text source w) ∧
      ∀ (env' : Surroundings ι (Recorded ι ω)) (conduct' : ι → Notice → Conduct ω),
        env'.Observed conduct' → env' = { env with notify := env'.notify } →
        (∀ l n, (conduct' l n).quiet = (conduct l n).quiet) →
        w.analyze env' text source = w.analyze env text source := by
  refine ⟨fun hbusy => analyze_busy hbusy text source, fun hidle => analyze_course h text source hidle, ?_⟩
  intro env' conduct' h' hsame hquiet
  rw [h.eq_of_quiet h' hsame hquiet]

/-- One listener that fails, one that asks for another analysis and lets the refusal escape, and one that
counts, told of an analysis that finds a node. -/
theorem analyze_observed_refused_inside :
    let raw := "[\x7b\"hashCode\":7\x7d]"
    let node : Node :=
      { hash := 7, parent := none, kind := "", text := "", extent := "", startLine := 0, startColumn := 0
        endLine := 0, endColumn := 0, textLength := 0, properties := [], id := "" }
    let base : Surroundings Nat (Recorded Nat Nat) :=
      { notify := fun _ _ w => w, serve := fun _ w => (.ok raw, w), note := fun _ w => w
        release := id, latency := 0 }
    let conduct : Nat → Notice → Conduct Nat := fun l _ =>
      match l with
      | 0 => .fails (.crash "listener")
      | 1 => .ask "again" none fun
        | some (.error f) => .fails f
        | _ => .done
      | _ => .act (· + 1) .done
    let calm : Nat → Notice → Conduct Nat := fun l _ =>
      match l with
      | 0 => .done
      | 1 => .look fun _ _ => .done
      | _ => .act (· + 1) .done
    let listeners : Emitter Nat := ⟨3, [(0, 0), (1, 1), (2, 2)]⟩
    let w : World Nat (Recorded Nat Nat) :=
      ⟨{ (Session.new true : Session Nat) with
          selectionListeners := listeners, analyzingListeners := listeners }, ⟨0, []⟩⟩
    let ended := w.analyze (base.ofConduct conduct) "x" none
    (base.ofConduct conduct).Observed conduct ∧ (base.ofConduct calm).Observed calm ∧
      w.session.isAnalyzing = false ∧ Payload.read raw = .ok ⟨[node], [], 0⟩ ∧
      ended.1 = .ok (Forest.build [node]).roots ∧ ended.2.session.isAnalyzing = false ∧
      ended.2.rest.deliveries.map (fun d => (d.listener, d.notice)) =
        [0, 1, 2].map (·, .analyzing true) ++ [0, 1, 2].map (·, .selection (some ⟨1, 7⟩)) ++
          [0, 1, 2].map (·, .analyzing false) ∧
      w.analyze (base.ofConduct calm) "x" none = ended := by
  intro raw node base conduct calm listeners w ended
  have hobserved (conduct : Nat → Notice → Conduct Nat) : (base.ofConduct conduct).Observed conduct :=
    Surroundings.ofConduct_observed (fun _ _ => ⟨rfl, rfl⟩) (fun _ _ => ⟨rfl, rfl⟩) conduct
  have hread : Payload.read raw = .ok ⟨[node], [], 0⟩ := calc
    Payload.read raw = Payload.ofJson (.list [.object [("hashCode", .int 7)]]) := Payload.read_ofList (by cbv) (by cbv)
    _ = .ok ⟨[node], [], 0⟩ := by rfl
  have hpayload : payloadOf (.ok raw) = .ok ⟨[node], [], 0⟩ := congrArg (Except.mapError _) hread
  have hquiet : ∀ l n, (calm l n).quiet = (conduct l n).quiet := by
    intro l n
    rcases l with _ | _ | l
    · rfl
    · show Conduct.look _ = Conduct.look _
      congr
      funext v _
      cases v.isAnalyzing <;> rfl
    · rfl
  obtain ⟨-, hcourse, hcalm⟩ := analyze_observed (hobserved conduct) "x" none w
  obtain ⟨hresult, -, hdeliveries⟩ := (hcourse rfl).succeeded _ hpayload
  refine ⟨hobserved conduct, hobserved calm, rfl, hread, hresult, (hcourse rfl).idle, ?_,
    hcalm _ calm (hobserved calm) rfl hquiet⟩
  have hroot : (Forest.build [node]).roots.head?.map (Snapshot.ofPayload 1 none ⟨[node], [], 0⟩).key =
      some ⟨1, 7⟩ := by cbv
  have htold (first : Option NodeKey) (v v' : View) :
      (w.rest.deliveries ++ w.around (listeners.told (.selection first) v) v').map
          (fun d => (d.listener, d.notice)) =
        [0, 1, 2].map (·, .analyzing true) ++ [0, 1, 2].map (·, .selection first) ++
          [0, 1, 2].map (·, .analyzing false) := by rfl
  rw [hdeliveries, htold, ← hroot]
  rfl

end World
end ScriptTree.Analysis
