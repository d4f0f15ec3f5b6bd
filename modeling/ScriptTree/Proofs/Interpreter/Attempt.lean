/-
How a command gets to a process. There are at most two attempts, and what comes of them is seen from the state
of the runner before: whether a process is in use and has not ended, what its input does with a line, and
what the host does with the starts of the next processes (`Runner.attempts`). A command fails as the last
attempt does, or on the process that has taken it, or because the machine cannot time the wait for the answer
(`run_ends`, `run_overlong_iff`), and starting the interpreter first makes no attempt more or less
(`start_cases`).
-/
import ScriptTree.Proofs.Interpreter.Attribution

namespace ScriptTree.Interpreter

/-! ## Attempts -/

/-- Why a process cannot be started, if it cannot. -/
def Host.launchFault? (h : Host) (p : Profile) : Option RunnerError :=
  match h.lookup.command p.command p.installHint with
  | .error e => some e
  | .ok command =>
    match h.spawnFault? command with
    | some (_, fault) => some (.plain s!"Failed to start {p.displayName}: {fault}")
    | none => if (Transport.new? p).isSome then none else some (.launch .emptySentinel)

/-- The host after a process was started. -/
def Host.afterLaunch (h : Host) : Host :=
  { h.afterStart with nextInputs := h.nextInputs.tail }

/-- What comes of an attempt to get a command to a process. -/
inductive Attempt where
  /-- There is no process, since none could be started. -/
  | unlaunched (e : RunnerError)
  /-- There is a process, which does not take the command. -/
  | refused
  | taken
  deriving DecidableEq, Repr

/-- What comes of an attempt on a process with the given input. -/
def Input.attempt : Input → Attempt
  | .accepts => .taken
  | _ => .refused

/-- What comes of an attempt that begins with starting a process. -/
def Host.attempt (h : Host) (p : Profile) : Attempt :=
  match h.launchFault? p with
  | some e => .unlaunched e
  | none => (h.nextInputs.headD .accepts).attempt

theorem Host.attempt_unlaunched {h : Host} {p : Profile} {e : RunnerError} (hfault : h.launchFault? p = some e) :
    h.attempt p = .unlaunched e := by
  rw [attempt, hfault]

theorem Host.attempt_launched {h : Host} {p : Profile} (hfault : h.launchFault? p = none) :
    h.attempt p = (h.nextInputs.headD .accepts).attempt := by
  rw [attempt, hfault]

/-- After a refusal there is one more attempt. -/
def Attempt.then (first second : Attempt) : List Attempt :=
  match first with
  | .refused => [.refused, second]
  | a => [a]

namespace Runner

/-- The input of the process in use, if there is one that has not ended. -/
def input? (r : Runner) : Option Input :=
  match r.current.bind (r.processes[·]?) with
  | some p => if p.exitCode.isNone then some p.input else none
  | none => none

/-- The attempts made for a command. -/
def attempts (r : Runner) : List Attempt :=
  if r.isDisposed then [.unlaunched (.session r.disposedError)]
  else
    match r.input? with
    | some input => input.attempt.then (r.host.attempt r.profile)
    | none => (r.host.attempt r.profile).then (r.host.afterLaunch.attempt r.profile)

/-- There are at most two attempts, the second one after a refusal. -/
theorem attempts_then (r : Runner) : ∃ first second : Attempt, r.attempts = first.then second := by
  unfold attempts
  split
  · exact ⟨.unlaunched (.session r.disposedError), .taken, rfl⟩
  · split
    · exact ⟨_, _, rfl⟩
    · exact ⟨_, _, rfl⟩

/-! ## States -/

/-- No process is in use. -/
structure Idle (p : Profile) (h : Host) (r : Runner) : Prop where
  current : r.current = none
  live : r.isDisposed = false
  profile : r.profile = p
  host : r.host = h

/-- A process is in use that has not ended. -/
structure Ready (p : Profile) (h : Host) (i : Nat) (input : Input) (r : Runner) : Prop where
  current : r.current = some i
  process : ∃ q, r.processes[i]? = some q ∧ q.exitCode = none ∧ q.input = input
  live : r.isDisposed = false
  profile : r.profile = p
  host : r.host = h

variable {r r₀ : Runner} {p : Profile} {h : Host} {i : Nat} {input : Input}

theorem Ready.input?_eq (hr : Ready p h i input r) : r.input? = some input := by
  obtain ⟨q, hq, hexit, hinput⟩ := hr.process
  unfold input?
  simp [hr.current, hq, hexit, hinput]

theorem Idle.input?_eq (hr : Idle p h r) : r.input? = none := by
  unfold input?
  simp [hr.current]

theorem giveUp_profile (r : Runner) (actor : Actor) (i : Nat) (exitCode : Option Int) (fault : Option String) :
    (r.giveUp actor i exitCode fault).profile = r.profile := by
  unfold giveUp
  split <;> rfl

theorem kill_profile (r : Runner) (i : Nat) : (r.kill i).profile = r.profile := by
  unfold kill
  split <;> rfl

/-- A process given up leaves none in use. -/
theorem giveUp_idle {actor : Actor} {exitCode : Option Int} {fault : Option String} (hr : Idle p h r) :
    Idle p h (r.giveUp actor i exitCode fault) where
  current := (giveUp_current _ _ _ _ _).trans hr.current
  live := (giveUp_isDisposed _ _ _ _ _).trans hr.live
  profile := (giveUp_profile _ _ _ _ _).trans hr.profile
  host := (giveUp_host _ _ _ _ _).trans hr.host

theorem discard_idle (hr : Ready p h i input r) : Idle p h (r.discard i) := by
  unfold discard
  rw [if_pos hr.current]
  refine giveUp_idle ?_
  rw [Runner.kill_idle]
  exact ⟨rfl, (kill_isDisposed _ _).trans hr.live, (kill_profile _ _).trans hr.profile,
    (kill_host _ _).trans hr.host⟩

/-! ## Starting a process -/

/-- Starting a process fails where the host says so, and otherwise the process is in use. -/
theorem spawn_cases (hr : Idle p h r) :
    (∃ e, h.launchFault? p = some e ∧ r.spawn.1 = .error e) ∨
      h.launchFault? p = none ∧
        ∃ i r', r.spawn = (.ok i, r') ∧ Ready p h.afterLaunch i (h.nextInputs.headD .accepts) r' := by
  obtain ⟨-, hlive, rfl, rfl⟩ := hr
  unfold Host.launchFault? spawn
  cases hcommand : r.host.lookup.command r.profile.command r.profile.installHint with
  | error e => exact .inl ⟨e, rfl, rfl⟩
  | ok command =>
    dsimp only
    cases hspawn : r.host.spawnFault? command with
    | some fault => exact .inl ⟨_, rfl, rfl⟩
    | none =>
      dsimp only
      cases hnew : Transport.new? r.profile with
      | none =>
        refine .inl ⟨_, rfl, ?_⟩
        split
        · rfl
        · rename_i hsome
          cases hnew.symm.trans hsome
      | some transport =>
        refine .inr ⟨rfl, ?_⟩
        split
        · rename_i hnone
          cases hnew.symm.trans hnone
        · exact ⟨_, _, rfl, rfl, ⟨_, List.getElem?_concat_length, rfl, rfl⟩, hlive, rfl, rfl⟩

/-! ## Sending -/

/-- How the result of sending a command shows what came of the attempt. -/
def Shows (p : Profile) (h : Host) (sent : Except RunnerError Nat × Runner) : Attempt → Prop
  | .unlaunched (.session e) => ∃ f r, sent = (.ok f, r) ∧ r.futures.get f = .failed e
  | .unlaunched (.launch fault) => ∃ r, sent = (.error (.launch fault), r)
  | .refused => ∃ e r, sent = (.error (.session e), r) ∧ Idle p h r
  | .taken => ∃ f r, sent = (.ok f, r)

theorem failed_get (r : Runner) (e : SessionError) :
    (r.failed e).2.futures.get (r.failed e).1 = .failed e := by
  rw [Futures.get, List.getD_eq_getElem?_getD, failed_outcome]
  rfl

theorem write_shows (hr : Ready p h i input r) (command : String) :
    Shows p h ((r.write i command).1.mapError .session, (r.write i command).2) input.attempt := by
  obtain ⟨q, hq, -, rfl⟩ := hr.process
  have hlines (lines : List Effect) : Idle p h ((r.act lines).discard i) :=
    discard_idle ⟨hr.current, hr.process, hr.live, hr.profile, hr.host⟩
  unfold write
  simp only [hq, Transport.send]
  cases hinput : q.input with
  | accepts => exact ⟨_, _, rfl⟩
  | _ => exact ⟨_, _, rfl, hlines _⟩

theorem send_live (hlive : r.isDisposed = false) (command : String) :
    r.send command = match r.ensureStarted with
      | (.error (.session e), r) => (.ok (r.refuse e).1, (r.refuse e).2)
      | (.error (.launch f), r) => (.error (.launch f), r)
      | (.ok i, r) => ((r.write i command).1.mapError .session, (r.write i command).2) := by
  unfold send
  exact if_neg (by simp [hlive])

theorem send_ready (hr : Ready p h i input r) (command : String) :
    Shows p h (r.send command) input.attempt := by
  obtain ⟨q, hq, hexit, -⟩ := hr.process
  have hstarted : r.ensureStarted = (.ok i, r) := by
    unfold ensureStarted
    simp only [hr.current, hq, Option.bind_some, hexit]
  rw [send_live hr.live, hstarted]
  exact write_shows hr command

/-- An attempt that begins with starting a process, once the one before is given up. -/
theorem send_launching (hlive : r.isDisposed = false) (hr : Idle p h r₀) (hstarted : r.ensureStarted = r₀.spawn)
    (command : String) : Shows p h.afterLaunch (r.send command) (h.attempt p) := by
  rw [send_live hlive, hstarted]
  rcases spawn_cases hr with ⟨e, hfault, hspawn⟩ | ⟨hfault, i, r', hspawn, hready⟩
  · rw [Host.attempt_unlaunched hfault, ← Prod.mk.eta (p := r₀.spawn), hspawn]
    cases e with
    | session e => exact ⟨_, _, rfl, failed_get _ e⟩
    | launch f => exact ⟨_, rfl⟩
  · rw [hspawn, Host.attempt_launched hfault]
    exact write_shows hready command

theorem send_idle (hr : Idle p h r) (command : String) :
    Shows p h.afterLaunch (r.send command) (h.attempt p) := by
  refine send_launching hr.live hr ?_ command
  unfold ensureStarted
  rw [hr.current]

/-! ## Running a command -/

/-- How a command ends whose last attempt is known. -/
def Ends (out : Option (Except RunError (List Char))) : Attempt → Prop
  | .unlaunched e => out = some (.error (.runner e))
  | .refused => ∃ e, out = some (.error (.runner (.session e)))
  | .taken => ∀ e, out = some (.error e) → (∃ s, e = .runner (.session s)) ∨ ∃ limit, e = .overlong limit

/-- What a command that was sent comes to if it is not sent again. -/
def finish (timeout : Option TimeLimit) : Except RunnerError Nat × Runner → Option (Except RunError (List Char))
  | (.ok f, r) => (r.await f timeout).1
  | (.error e, _) => some (.error (.runner e))

theorem await_failed {f : Nat} {e : SessionError} (hf : r.futures.get f = .failed e) (timeout : Option TimeLimit) :
    r.await f timeout = (some (.error (.runner (.session e))), r) := by
  unfold await
  rw [hf]

theorem outwait_fst (r : Runner) (f : Nat) (limit : TimeLimit) :
    (r.outwait f limit).1 = .overlong limit ∧ limit.isOverlong = true ∨
      (∃ s, (r.outwait f limit).1 = .runner (.session s)) ∧ limit.isOverlong = false := by
  unfold outwait
  cases limit.isOverlong with
  | true => exact .inl ⟨rfl, rfl⟩
  | false => exact .inr ⟨⟨_, rfl⟩, rfl⟩

/-- Waiting fails as the answer does, by running out of time, or by asking for more time than can be counted. -/
theorem await_error {f : Nat} {timeout : Option TimeLimit} {e : RunError} (h : (r.await f timeout).1 = some (.error e)) :
    (∃ s, e = .runner (.session s)) ∨ ∃ limit, e = .overlong limit := by
  unfold await at h
  split at h
  · cases h
  · cases h
    exact .inl ⟨_, rfl⟩
  · cases h
    exact .inl ⟨_, rfl⟩
  · split at h
    · cases h
    · rename_i limit
      cases h
      rcases r.outwait_fst f limit with ⟨hout, -⟩ | ⟨⟨s, hout⟩, -⟩
      · exact .inr ⟨limit, hout⟩
      · exact .inl ⟨s, hout⟩

/-- A wait is refused just when the answer is not there and the limit is too long. -/
theorem await_overlong_iff {f : Nat} {timeout : Option TimeLimit} {limit : TimeLimit} :
    (r.await f timeout).1 = some (.error (.overlong limit)) ↔
      r.futures.get f = .pending ∧ timeout = some limit ∧ limit.isOverlong = true := by
  unfold await
  cases r.futures.get f with
  | done value => exact iff_of_false (by rintro ⟨⟩) (by rintro ⟨⟨⟩, -⟩)
  | failed e => exact iff_of_false (by rintro ⟨⟩) (by rintro ⟨⟨⟩, -⟩)
  | cancelled => exact iff_of_false (by rintro ⟨⟩) (by rintro ⟨⟨⟩, -⟩)
  | pending =>
    cases timeout with
    | none => exact iff_of_false (by rintro ⟨⟩) (by rintro ⟨-, ⟨⟩, -⟩)
    | some given =>
      simp only [Option.some.injEq, Except.error.injEq, true_and]
      rcases r.outwait_fst f given with ⟨hout, hlong⟩ | ⟨⟨s, hout⟩, hshort⟩
      · rw [hout, RunError.overlong.injEq]
        exact ⟨fun h => ⟨h, h ▸ hlong⟩, And.left⟩
      · rw [hout]
        refine iff_of_false (by rintro ⟨⟩) ?_
        rintro ⟨rfl, hlong⟩
        exact Bool.false_ne_true (hshort.symm.trans hlong)

theorem finish_ends {sent : Except RunnerError Nat × Runner} {a : Attempt} (hshows : Shows p h sent a)
    (timeout : Option TimeLimit) : Ends (finish timeout sent) a := by
  match a, hshows with
  | .unlaunched (.session e), ⟨f, r, hsent, hget⟩ =>
    rw [hsent, finish, await_failed hget]
    rfl
  | .unlaunched (.launch fault), ⟨r, hsent⟩ =>
    rw [hsent]
    rfl
  | .refused, ⟨e, r, hsent, _⟩ =>
    rw [hsent]
    exact ⟨e, rfl⟩
  | .taken, ⟨f, r, hsent⟩ =>
    rw [hsent, finish]
    exact fun e he => await_error he

/-- A command is sent again only if a process did not take it. -/
theorem run_fst (r : Runner) (command : String) (timeout : Option TimeLimit) :
    (r.run command timeout).1 = match r.send command with
      | (.error (.session _), r') => finish timeout (r'.send command)
      | sent => finish timeout sent := by
  unfold run invoke
  rcases r.send command with ⟨_ | _, r'⟩
  · rename_i e
    cases e with
    | launch f => rfl
    | session e =>
      dsimp only
      rcases r'.send command with ⟨_ | _, r''⟩
      · rename_i e
        cases e with
        | launch f => rfl
        | session e =>
          dsimp only [refuse]
          rw [await_failed (failed_get _ e)]
          rfl
      · rfl
  · rfl

/-- The wait for the answer to a command is refused: the answer is not there when it is waited for, and the
limit is too long for the machine. -/
def Overruns (r : Runner) (command : String) (timeout : Option TimeLimit) (limit : TimeLimit) : Prop :=
  ∃ f r', r.invoke command = (.ok f, r') ∧ r'.futures.get f = .pending ∧ timeout = some limit ∧
    limit.isOverlong = true

theorem run_overlong_iff {command : String} {timeout : Option TimeLimit} {limit : TimeLimit} :
    (r.run command timeout).1 = some (.error (.overlong limit)) ↔ r.Overruns command timeout limit := by
  unfold run Overruns
  rcases r.invoke command with ⟨_ | f, r'⟩
  · exact iff_of_false (by rintro ⟨⟩) (by rintro ⟨_, _, ⟨⟩, -⟩)
  · dsimp only
    rw [await_overlong_iff]
    constructor
    · exact fun h => ⟨f, r', rfl, h⟩
    · rintro ⟨_, _, hinvoked, h⟩
      cases hinvoked
      exact h

theorem run_shows {a b : Attempt} {h' : Host} {command : String} (hfirst : Shows p h (r.send command) a)
    (hsecond : ∀ r', Idle p h r' → Shows p h' (r'.send command) b) (timeout : Option TimeLimit) :
    ∃ last, (a.then b).getLast? = some last ∧ Ends (r.run command timeout).1 last := by
  rw [run_fst]
  match a, hfirst with
  | .refused, ⟨e, r', hsent, hidle⟩ =>
    rw [hsent]
    exact ⟨b, rfl, finish_ends (hsecond r' hidle) timeout⟩
  | .unlaunched (.session e), ⟨f, r', hsent, hget⟩ =>
    rw [hsent]
    exact ⟨_, rfl, finish_ends (p := p) (h := h) (a := .unlaunched (.session e)) ⟨f, r', rfl, hget⟩ timeout⟩
  | .unlaunched (.launch fault), ⟨r', hsent⟩ =>
    rw [hsent]
    exact ⟨_, rfl, rfl⟩
  | .taken, ⟨f, r', hsent⟩ =>
    rw [hsent]
    exact ⟨_, rfl, finish_ends (p := p) (h := h) (a := .taken) ⟨f, r', rfl⟩ timeout⟩

/-- A command ends as its last attempt does. -/
theorem run_ends (hr : Sane r) (command : String) (timeout : Option TimeLimit) :
    ∃ last, r.attempts.getLast? = some last ∧ Ends (r.run command timeout).1 last := by
  unfold attempts
  cases hdisposed : r.isDisposed with
  | true =>
    rw [if_pos rfl]
    have hsent : Shows r.profile r.host (r.send command) (.unlaunched (.session r.disposedError)) := by
      unfold send
      rw [if_pos hdisposed]
      exact ⟨_, _, rfl, failed_get r _⟩
    exact run_shows hsent (fun r' h' => send_idle h' command) timeout
  | false =>
    rw [if_neg Bool.false_ne_true]
    cases hcurrent : r.current with
    | none =>
      have hidle : Idle r.profile r.host r := ⟨hcurrent, hdisposed, rfl, rfl⟩
      rw [hidle.input?_eq]
      exact run_shows (send_idle hidle command) (fun r' h' => send_idle h' command) timeout
    | some i =>
      obtain ⟨q, hq, -, -⟩ := hr.process hcurrent
      cases hexit : q.exitCode with
      | none =>
        have hready : Ready r.profile r.host i q.input r :=
          ⟨hcurrent, ⟨q, hq, hexit, rfl⟩, hdisposed, rfl, rfl⟩
        rw [hready.input?_eq]
        exact run_shows (send_ready hready command) (fun r' h' => send_idle h' command) timeout
      | some code =>
        -- the process has ended without notice, and is given up first
        have hidle : Idle r.profile r.host (({ r with current := none }).giveUp .caller i (some code) none) :=
          giveUp_idle ⟨rfl, hdisposed, rfl, rfl⟩
        have hstarted : r.ensureStarted = (({ r with current := none }).giveUp .caller i (some code) none).spawn := by
          unfold ensureStarted
          simp only [hcurrent, hq, Option.bind_some, hexit]
        have hinput : r.input? = none := by
          unfold input?
          simp [hcurrent, hq, hexit]
        rw [hinput]
        exact run_shows (send_launching hdisposed hidle hstarted command) (fun r' h' => send_idle h' command) timeout

theorem idle_attempts (hr : Idle p h r) : r.attempts = (h.attempt p).then (h.afterLaunch.attempt p) := by
  unfold attempts
  rw [if_neg (by simp [hr.live]), hr.input?_eq, hr.profile, hr.host]

theorem ready_attempts (hr : Ready p h i input r) : r.attempts = input.attempt.then (h.attempt p) := by
  unfold attempts
  rw [if_neg (by simp [hr.live]), hr.input?_eq, hr.profile, hr.host]

theorem start_idle (hr : Idle p h r) : r.start = match r.spawn with
    | (.ok _, r) => (.ok (), r)
    | (.error e, r) => (.error e, r) := by
  unfold start
  rw [if_neg (by simp [hr.live])]
  exact if_neg (by simp [isRunning, hr.current])

/-- If no process is in use and the interpreter cannot be started, a command would have failed for the same
reason. Otherwise the attempts made for a command are the same after the start, and a process is there. -/
theorem start_cases (hcurrent : r.current = none) :
    (∃ e, r.start.1 = .error e ∧ r.attempts = [.unlaunched e]) ∨
      r.start.1 = .ok () ∧ r.start.2.attempts = r.attempts ∧ ∀ e, r.attempts ≠ [.unlaunched e] := by
  cases hdisposed : r.isDisposed with
  | true =>
    refine .inl ⟨.session r.disposedError, ?_, ?_⟩
    · rw [start, if_pos hdisposed]
    · rw [attempts, if_pos hdisposed]
  | false =>
    have hidle : Idle r.profile r.host r := ⟨hcurrent, hdisposed, rfl, rfl⟩
    rcases spawn_cases hidle with ⟨e, hfault, hspawn⟩ | ⟨hfault, i, r', hspawn, hready⟩
    · refine .inl ⟨e, ?_, ?_⟩
      · rw [start_idle hidle, ← Prod.mk.eta (p := r.spawn), hspawn]
      · rw [idle_attempts hidle, Host.attempt_unlaunched hfault]
        rfl
    · have hattempts : r.attempts = _ := idle_attempts hidle
      rw [Host.attempt_launched hfault] at hattempts
      refine .inr ⟨?_, ?_, fun e he => ?_⟩
      · rw [start_idle hidle, hspawn]
      · rw [start_idle hidle, hspawn, hattempts]
        exact ready_attempts hready
      · rw [hattempts] at he
        cases hinput : r.host.nextInputs.headD .accepts <;> rw [hinput] at he <;> cases he

end Runner
end ScriptTree.Interpreter
