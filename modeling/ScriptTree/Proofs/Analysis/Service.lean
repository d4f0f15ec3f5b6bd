/-
Which stage of an analysis fails. The parser service starts an interpreter that has no process in use before it
runs the parser, and the interpreter starts one itself where the process in use has ended without notice or
does not take the command. Only the first of the two is told as a failure of the start (`Staged`), so the
stages are told apart as documented (`StageLaw`) just if no start that the interpreter makes by itself fails,
nor one for which no session can come about, and the machine can time the wait for the answer
(`analyze_staged`).
-/
import ScriptTree.Analysis.Service
import ScriptTree.Proofs.Interpreter.Attempt

namespace ScriptTree.Analysis.Service

open Interpreter (Attempt Runner RunnerError RunError SessionError Lifetime Host Profile TimeLimit)

/-- The interpreter is where its owner, its readers and the world have brought it, in whatever order. -/
def Reachable (r : Runner) : Prop :=
  ∃ profile host events, r = ((Lifetime.new profile host).run events).runner

theorem Reachable.sane {r : Runner} (h : Reachable r) : r.Sane := by
  obtain ⟨profile, host, events, rfl⟩ := h
  exact (Lifetime.run_kept (Lifetime.new_kept profile host) events).sane

/-- The stages are told apart: that no process could be started for a command is a failure of the start, and
any other failure one of the invocation. The last attempt decides. -/
def StageLaw (attempts : List Attempt) (out : Option (Except ServiceFault String)) : Prop :=
  match attempts.getLast? with
  | some (.unlaunched _) => ∃ message, out = some (.error (.stage { stage := startStage, message }))
  | _ => ∀ f, out = some (.error f) → ∃ message, f = .stage { stage := invokeStage, message }

/-- The interpreter that runs the command, if there is one: as it is if it has a process in use, else as it is after
its start. -/
def opened? (r : Runner) : Option Runner :=
  if r.isRunning then some r
  else
    match r.start with
    | (.ok _, r') => some r'
    | (.error _, _) => none

/-- The command gets as far as the wait for its answer, which the machine cannot time: the answer is not there yet. -/
def Overruns (r : Runner) (command : String) (timeout : Option Binary64) (limit : TimeLimit) : Prop :=
  ∃ r', opened? r = some r' ∧ r'.Overruns command (timeout.map .real) limit

/-- What an analysis fails with, by the attempts to get the parser command to a process. -/
structure Staged (r : Runner) (command : String) (timeout : Option Binary64)
    (out : Option (Except ServiceFault String)) : Prop where
  /-- No process was in use, and none could be started. -/
  unstarted : ∀ e, r.isRunning = false → r.attempts = [.unlaunched e] →
    out = some (.error (.ofRunner startError e))
  /-- The process in use had ended without notice, and none could be started in its place. -/
  lapsed : ∀ e, r.isRunning = true → r.attempts = [.unlaunched e] →
    out = some (.error (.ofRunner invokeError e))
  /-- A process did not take the command, and none could be started in its place. -/
  unreplaced : ∀ e, r.attempts = [.refused, .unlaunched e] → out = some (.error (.ofRunner invokeError e))
  /-- Neither of two processes took the command. -/
  refused : r.attempts = [.refused, .refused] → ∃ e, out = some (.error (.stage (invokeError e)))
  /-- A process took the command. -/
  taken : r.attempts.getLast? = some .taken → ∀ f, out = some (.error f) →
    (∃ e, f = .stage (invokeError e)) ∨ ∃ limit, f = .overlong limit
  /-- The wait for its answer was refused. -/
  overlong : ∀ limit, out = some (.error (.overlong limit)) ↔ Overruns r command timeout limit

variable {r : Runner} {command : String} {timeout : Option Binary64}

/-- How the parser command ends whose last attempt is known. -/
def Ends (out : Option (Except ServiceFault String)) : Attempt → Prop
  | .unlaunched e => out = some (.error (.ofRunner invokeError e))
  | .refused => ∃ e, out = some (.error (.stage (invokeError e)))
  | .taken => ∀ f, out = some (.error f) → (∃ e, f = .stage (invokeError e)) ∨ ∃ limit, f = .overlong limit

/-- What the service makes of the outcome of a command. -/
def told (out : Option (Except RunError (List Char))) : Option (Except ServiceFault String) :=
  out.map fun o => (o.map String.ofList).mapError (.ofRun invokeError)

theorem told_overlong_iff {out : Option (Except RunError (List Char))} {limit : TimeLimit} :
    told out = some (.error (.overlong limit)) ↔ out = some (.error (.overlong limit)) := by
  match out with
  | none => exact iff_of_false (by rintro ⟨⟩) (by rintro ⟨⟩)
  | some (.ok value) => exact iff_of_false (by rintro ⟨⟩) (by rintro ⟨⟩)
  | some (.error (.runner (.session e))) => exact iff_of_false (by rintro ⟨⟩) (by rintro ⟨⟩)
  | some (.error (.runner (.launch f))) => exact iff_of_false (by rintro ⟨⟩) (by rintro ⟨⟩)
  | some (.error (.overlong given)) =>
    show some (Except.error (ServiceFault.overlong given)) = _ ↔ _
    simp

theorem ends_of_runner {out : Option (Except RunError (List Char))} {a : Attempt} (h : Runner.Ends out a) :
    Ends (told out) a := by
  match a, h with
  | .unlaunched e, h =>
    rw [show out = some (.error (.runner e)) from h]
    rfl
  | .refused, ⟨e, h⟩ =>
    rw [h]
    exact ⟨e, rfl⟩
  | .taken, h =>
    intro f hf
    obtain ⟨o, ho, hf⟩ := Option.map_eq_some_iff.1 hf
    cases o with
    | ok value => cases hf
    | error e =>
      rcases h e ho with ⟨s, rfl⟩ | ⟨limit, rfl⟩
      · cases hf
        exact .inl ⟨s, rfl⟩
      · cases hf
        exact .inr ⟨limit, rfl⟩

theorem staged_of_ends {out : Option (Except ServiceFault String)} {last : Attempt}
    (hlast : r.attempts.getLast? = some last) (hends : Ends out last)
    (hstarted : r.isRunning = false → ∀ e, r.attempts ≠ [.unlaunched e])
    (hoverlong : ∀ limit, out = some (.error (.overlong limit)) ↔ Overruns r command timeout limit) :
    Staged r command timeout out where
  unstarted e hidle hattempts := absurd hattempts (hstarted hidle e)
  lapsed e _ hattempts := by
    rw [hattempts] at hlast
    cases hlast
    exact hends
  unreplaced e hattempts := by
    rw [hattempts] at hlast
    cases hlast
    exact hends
  refused hattempts := by
    rw [hattempts] at hlast
    cases hlast
    exact hends
  taken htaken := by
    rw [hlast] at htaken
    cases htaken
    exact hends
  overlong := hoverlong

/-- The command is run in the interpreter as it is, or as it was after its start. -/
theorem run_staged {windows : Bool} {platform : String} {host : Host} {r' : Runner} (s : Service Runner)
    (hr : r'.Sane) (hsame : r'.attempts = r.attempts) (hopened : opened? r = some r') (source : String)
    (hstarted : r.isRunning = false → ∀ e, r.attempts ≠ [.unlaunched e]) :
    Staged r (parseCommand s.script.text source) s.config.timeout
      (s.run (runnerBackend windows platform host) r' source).1 := by
  have hrun : (s.run (runnerBackend windows platform host) r' source).1 =
      told (r'.run (parseCommand s.script.text source) (s.config.timeout.map .real)).1 := by
    rw [run]
    dsimp only [runnerBackend]
    rw [Option.map_map]
    rfl
  obtain ⟨last, hlast, hends⟩ :=
    Runner.run_ends hr (parseCommand s.script.text source) (s.config.timeout.map .real)
  rw [hsame] at hlast
  rw [hrun]
  refine staged_of_ends hlast (ends_of_runner hends) hstarted fun limit => ?_
  rw [told_overlong_iff, Runner.run_overlong_iff, Overruns]
  simp only [hopened, Option.some.injEq, exists_eq_left']

theorem staged_of_unstarted {e : RunnerError} (hidle : r.isRunning = false)
    (hattempts : r.attempts = [.unlaunched e]) (hclosed : opened? r = none) :
    Staged r command timeout (some (.error (.ofRunner startError e))) where
  unstarted e' _ h := by
    cases hattempts.symm.trans h
    rfl
  lapsed e' hrunning := by cases hidle.symm.trans hrunning
  unreplaced e' h := by cases hattempts.symm.trans h
  refused h := by cases hattempts.symm.trans h
  taken h := by
    rw [hattempts] at h
    cases h
  overlong limit := by
    refine iff_of_false ?_ ?_
    · cases e <;> rintro ⟨⟩
    · rintro ⟨r', hopened, -⟩
      cases hclosed.symm.trans hopened

theorem analyze_cases (s : Service Runner) (hs : s.isDisposed = false) {windows : Bool} {platform : String}
    {host : Host} (source : String) (r : Runner)
    (hinterpreter : s.interpreter.getD ((runnerBackend windows platform host).make s.config) = r) (hr : r.Sane) :
    Staged r (parseCommand s.script.text source) s.config.timeout
      (s.analyze (runnerBackend windows platform host) source).1 := by
  have hensure : s.ensure (runnerBackend windows platform host) = .ok r := by
    rw [ensure, if_neg (by simp [hs]), hinterpreter]
  unfold analyze
  rw [hensure]
  dsimp only
  cases hrunning : r.isRunning with
  | true =>
    rw [if_pos (show (runnerBackend windows platform host).isRunning r = true from hrunning)]
    exact run_staged s hr rfl (by rw [opened?, if_pos hrunning]) source (by simp [hrunning])
  | false =>
    rw [if_neg (show ¬ (runnerBackend windows platform host).isRunning r = true by simp [runnerBackend, hrunning])]
    have hopened : opened? r = match r.start with
        | (.ok _, r') => some r'
        | (.error _, _) => none := by
      rw [opened?, if_neg (by simp [hrunning])]
    have hcurrent : r.current = none := by
      rwa [Runner.isRunning, Option.isSome_eq_false_iff, Option.isNone_iff_eq_none] at hrunning
    rcases Runner.start_cases hcurrent with ⟨e, hstart, hattempts⟩ | ⟨hstart, hsame, hstarted⟩
    · have hout : ((runnerBackend windows platform host).start r).1 = .error e := hstart
      rcases hresult : (runnerBackend windows platform host).start r with ⟨_ | _, r'⟩
      · rw [hresult] at hout
        cases hout
        refine staged_of_unstarted hrunning hattempts (hopened.trans ?_)
        rw [← Prod.mk.eta (p := r.start), hstart]
      · rw [hresult] at hout
        cases hout
    · have hout : (runnerBackend windows platform host).start r = (.ok (), r.start.2) := by
        rw [← hstart]
        rfl
      rw [hout]
      refine run_staged s (Runner.start_moves r hr).1 hsame (hopened.trans ?_) source fun _ => hstarted
      rw [← Prod.mk.eta (p := r.start), hstart]

theorem invoked {out : Option (Except ServiceFault String)}
    (h : ∀ f, out = some (.error f) → ∃ e, f = .stage (invokeError e)) (f : ServiceFault)
    (hf : out = some (.error f)) : ∃ message, f = .stage { stage := invokeStage, message } := by
  obtain ⟨e, rfl⟩ := h f hf
  exact ⟨_, rfl⟩

theorem not_start_of_invoke {e : RunnerError} {message : Points} :
    ServiceFault.ofRunner invokeError e ≠ .stage { stage := startStage, message } := by
  cases e with
  | session why =>
    intro h
    have hstages : invokeStage = startStage := congrArg StageError.stage (ServiceFault.stage.inj h)
    exact absurd hstages (by decide)
  | launch f => exact nofun

theorem forall_last {attempts : List Attempt} {e : RunnerError} (h : attempts.getLast? = some (.unlaunched e))
    {P : RunnerError → Prop} : (∀ e', attempts.getLast? = some (.unlaunched e') → P e') ↔ P e := by
  simp [h]

/-- A wait that is refused belongs to no stage. -/
theorem not_law_of_overlong {attempts : List Attempt} {limit : TimeLimit} :
    ¬ StageLaw attempts (some (.error (.overlong limit))) := by
  unfold StageLaw
  split
  · rintro ⟨message, ⟨⟩⟩
  · intro h
    obtain ⟨message, hstage⟩ := h _ rfl
    cases hstage

/-- When the stages are told apart: if the last attempt is one for which no process could be started, it is the
first one, made when no process was in use, and its failure is one of the session. And the machine can time the
wait for an answer that is not there yet. -/
theorem Staged.law_iff {out : Option (Except ServiceFault String)} (h : Staged r command timeout out) :
    StageLaw r.attempts out ↔ (∀ e, r.attempts.getLast? = some (.unlaunched e) →
      (∃ why, e = .session why) ∧ r.isRunning = false ∧ r.attempts = [.unlaunched e]) ∧
        ∀ limit, ¬ Overruns r command timeout limit := by
  by_cases hlong : ∃ limit, Overruns r command timeout limit
  · obtain ⟨limit, hlimit⟩ := hlong
    rw [(h.overlong limit).2 hlimit]
    exact iff_of_false not_law_of_overlong fun hno => hno.2 limit hlimit
  rw [not_exists] at hlong
  rw [and_iff_left hlong]
  have htaken (ha : r.attempts.getLast? = some .taken) (f : ServiceFault) (hf : out = some (.error f)) :
      ∃ e, f = .stage (invokeError e) := by
    refine (h.taken ha f hf).resolve_right ?_
    rintro ⟨limit, rfl⟩
    exact hlong limit ((h.overlong limit).1 hf)
  obtain ⟨first, second, hattempts⟩ := r.attempts_then
  match first, second, hattempts with
  | .unlaunched e, _, hattempts =>
    rw [forall_last (by rw [hattempts]; rfl), hattempts]
    cases hrunning : r.isRunning with
    | false =>
      rw [h.unstarted e hrunning hattempts]
      cases e with
      | session why => exact iff_of_true ⟨_, rfl⟩ ⟨⟨why, rfl⟩, rfl, rfl⟩
      | launch f => exact iff_of_false (fun ⟨_, hout⟩ => by cases hout) fun ⟨⟨_, he⟩, _⟩ => by cases he
    | true =>
      rw [h.lapsed e hrunning hattempts]
      refine iff_of_false (fun ⟨_, hout⟩ => ?_) fun ⟨_, hidle, _⟩ => by cases hidle
      exact not_start_of_invoke (Except.error.inj (Option.some.inj hout))
  | .refused, .unlaunched e, hattempts =>
    rw [forall_last (by rw [hattempts]; rfl), hattempts, h.unreplaced e hattempts]
    refine iff_of_false (fun ⟨_, hout⟩ => ?_) fun ⟨_, _, hfirst⟩ => by cases hfirst
    exact not_start_of_invoke (Except.error.inj (Option.some.inj hout))
  | .refused, .refused, hattempts =>
    obtain ⟨e, hout⟩ := h.refused hattempts
    rw [hattempts]
    exact iff_of_true (invoked fun f hf => ⟨e, (Except.error.inj (Option.some.inj (hout.symm.trans hf))).symm⟩)
      fun e he => by cases he
  | .refused, .taken, hattempts =>
    have hinvoked := invoked (htaken (by rw [hattempts]; rfl))
    rw [hattempts]
    exact iff_of_true hinvoked fun e he => by cases he
  | .taken, _, hattempts =>
    have hinvoked := invoked (htaken (by rw [hattempts]; rfl))
    rw [hattempts]
    exact iff_of_true hinvoked fun e he => by cases he

/-- Whatever has become of the interpreter of a service that is not disposed, an analysis fails in the stage
that its attempts say, unless the wait for the answer is refused. This tells the stages apart unless the
interpreter fails to start a process in the place of one that has ended without notice or has not taken the
command, or no session can come about, or the machine cannot time the wait. -/
theorem analyze_staged (s : Service Runner) (hs : s.isDisposed = false)
    (hr : ∀ r, s.interpreter = some r → Reachable r) (windows : Bool) (platform : String) (host : Host)
    (source : String) :
    let b := runnerBackend windows platform host
    let r := s.interpreter.getD (b.make s.config)
    let command := parseCommand s.script.text source
    let out := (s.analyze b source).1
    Staged r command s.config.timeout out ∧
      (StageLaw r.attempts out ↔ (∀ e, r.attempts.getLast? = some (.unlaunched e) →
        (∃ why, e = .session why) ∧ r.isRunning = false ∧ r.attempts = [.unlaunched e]) ∧
          ∀ limit, ¬ Overruns r command s.config.timeout limit) := by
  intro b r command out
  have hsane : r.Sane := by
    cases hinterpreter : s.interpreter with
    | none =>
      rw [show r = b.make s.config by simp only [r, hinterpreter, Option.getD_none]]
      exact Runner.new_sane _ _
    | some i =>
      rw [show r = i by simp only [r, hinterpreter, Option.getD_some]]
      exact (hr i hinterpreter).sane
  have hstaged : Staged r command s.config.timeout out := analyze_cases s hs source r rfl hsane
  exact ⟨hstaged, hstaged.law_iff⟩

/-- An interpreter whose process has ended without notice, on a host that starts no other. -/
def lapsed : Runner :=
  ((Lifetime.new { Profile.powershell false "pwsh" with sentinel := "." }
    { lookup := { which := [("pwsh", "/usr/bin/pwsh")], executables := [], files := .empty }
      spawnFaults := ["[Errno 12] Cannot allocate memory"], gone := [], nextInputs := [], replies := []
      latency := 0, goodStarts := 1 }).run [.start, .turn 0 (some 1) .accepts true]).runner

/-- The service that uses it. -/
def lapsedService : Service Runner where
  config := { flavor := .core, executable := none, timeout := none, docs := none }
  script := .ofText "/s/AstParse.ps1"
  interpreter := some lapsed
  isDisposed := false

theorem analyze_staged_lapsed :
    lapsedService.isDisposed = false ∧ (∀ r, lapsedService.interpreter = some r → Reachable r) ∧
      Staged lapsed (parseCommand lapsedService.script.text "x") lapsedService.config.timeout
        (lapsedService.analyze (runnerBackend false "linux" lapsed.host) "x").1 := by
  have hr : ∀ r, lapsedService.interpreter = some r → Reachable r := by
    rintro r ⟨⟩
    exact ⟨_, _, _, rfl⟩
  exact ⟨rfl, hr, (analyze_staged lapsedService rfl hr false "linux" lapsed.host "x").1⟩

/-- No process can be started for the command, and yet this is told as a failure of the invocation. -/
theorem not_stageLaw_lapsed :
    ¬ StageLaw lapsed.attempts (lapsedService.analyze (runnerBackend false "linux" lapsed.host) "x").1 := by
  have hattempts : lapsed.attempts =
      [.unlaunched (.plain "Failed to start PowerShell: [Errno 12] Cannot allocate memory")] := by
    cbv
  have hout : (lapsedService.analyze (runnerBackend false "linux" lapsed.host) "x").1 =
      some (.error (.ofRunner invokeError
        (.plain "Failed to start PowerShell: [Errno 12] Cannot allocate memory"))) := by
    cbv
  rw [hattempts, hout]
  rintro ⟨message, h⟩
  exact not_start_of_invoke (Except.error.inj (Option.some.inj h))

end ScriptTree.Analysis.Service
