/-
What becomes of error text. Nothing a runner does looks at the error text of a process but its responses,
so with other text the same happens, and the text is passed on or is gone (`left`). The first response to
an answer that waits is the one place where text is used (`Runner.Told`): it fails the answer, or is noted
beside the output. Text that is gone in any other way leaves no trace (`Lifetime.Untold`): when nobody
waits for a response, when the answer was given up and there is no output either, and when the process is
lost or the runner disposed.
-/
import ScriptTree.Proofs.Interpreter.Attribution
import ScriptTree.Proofs.Interpreter.Exchange
import ScriptTree.Proofs.Interpreter.Reply

namespace ScriptTree.Interpreter

/-- What is left of a text, all of which may be gone. -/
def left (gone : Bool) (text : List Char) : List Char :=
  if gone then [] else text

theorem left_left (gone gone' : Bool) (text : List Char) :
    left gone' (left gone text) = left (gone || gone') text := by
  cases gone <;> cases gone' <;> rfl

/-! ## One transport -/

theorem Futures.settle_of_closed {fs : Futures} {f : Nat} (h : fs.outcomes[f]? ≠ some .pending)
    (o : Outcome) : fs.settle f o = fs := by
  have houtcomes : (fs.settle f o).outcomes = fs.outcomes := by
    apply List.ext_getElem?
    intro g
    rw [settle_getElem?]
    by_cases hg : f = g
    · subst hg
      rw [if_pos rfl]
      cases hold : fs.outcomes[f]? with
      | none => rfl
      | some old => cases old <;> first | rfl | exact absurd hold h
    · rw [if_neg hg]
  cases fs
  exact congrArg Futures.mk houtcomes

namespace Transport

/-- The transport with other error text. -/
def withErrors (t : Transport) (text : List Char) : Transport :=
  { t with stderr := text }

/-- The answer that waits in front of the queue and the first response that output text completes, if
there are both. -/
def first? (t : Transport) (text : List Char) : Option (Nat × List Char) :=
  match t.pending, (t.stdout.append text).takeAll.1 with
  | f :: _, body :: _ => some (f, body)
  | _, _ => none

/-- The first response, if there is one to give, goes to an answer that is open no more and has no output, so
nothing is told of the error text. -/
def Silent (t : Transport) (fs : Futures) (text : List Char) : Prop :=
  ∀ f body, t.first? text = some (f, body) → fs.outcomes[f]? ≠ some .pending ∧ normalize body = []

variable {t : Transport} {fs : Futures} {text : List Char}

/-- The parts of the queue and of the responses that `first?` gives. -/
theorem of_first? {f : Nat} {body : List Char} (h : t.first? text = some (f, body)) :
    ∃ pending bodies, t.pending = f :: pending ∧ (t.stdout.append text).takeAll.1 = body :: bodies := by
  unfold first? at h
  split at h
  · rename_i pending bodies hpending hbodies
    cases h
    exact ⟨_, _, hpending, hbodies⟩
  · cases h

/-- A response without output to an answer that is open no more does nothing, whatever the error text. -/
theorem completeAll_silent {p : Profile} {c : Completion} (hclosed : fs.outcomes[c.future]? ≠ some .pending)
    (hbody : normalize c.body = []) (cs : List Completion) :
    completeAll p fs (c :: cs) = completeAll p fs cs := by
  have hevents : (conclude p c).2 = [] := by
    unfold conclude
    rw [hbody]
    cases normalize c.stderr <;> rfl
  rw [completeAll_cons, Futures.settle_of_closed hclosed, hevents]
  rfl

/-- Output whose first response is not told of error text is taken in the same way whatever that is. -/
theorem feedOutput_withErrors (h : t.Silent fs text) :
    ∃ gone, ∀ errors, (t.withErrors errors).feedOutput fs text =
      ((t.feedOutput fs text).1.withErrors (left gone errors), (t.feedOutput fs text).2) := by
  unfold feedOutput takeOutput
  have hstdout (errors : List Char) : (t.withErrors errors).stdout = t.stdout := rfl
  have hpending (errors : List Char) : (t.withErrors errors).pending = t.pending := rfl
  simp only [hstdout, hpending]
  cases hbodies : (t.stdout.append text).takeAll with
  | mk bodies stdout =>
    cases bodies with
    | nil => exact ⟨false, fun _ => by cases t.pending <;> rfl⟩
    | cons body bodies =>
      -- the text goes with the first response, whether anyone waits for it or not
      refine ⟨true, fun errors => ?_⟩
      cases hqueue : t.pending with
      | nil => rfl
      | cons f pending =>
        have hfirst : t.first? text = some (f, body) := by
          unfold first?
          rw [hqueue, hbodies]
        obtain ⟨hclosed, hbody⟩ := h f body hfirst
        simp only [assign]
        rw [completeAll_silent hclosed hbody, completeAll_silent hclosed hbody]
        rfl

/-- The first response to an answer that waits tells of the error text: beside an output it is noted, and
otherwise it fails the answer, if that is open. -/
theorem feedOutput_reports {f : Nat} {body : List Char} (hfirst : t.first? text = some (f, body))
    (herrors : normalize t.stderr ≠ []) :
    (t.feedOutput fs text).1.stderr = [] ∧
      (normalize body ≠ [] → .stderrDiscarded t.profile.name (String.ofList (normalize t.stderr))
        (normalize body).length ∈ (t.feedOutput fs text).2.events) ∧
      (normalize body = [] → fs.outcomes[f]? = some .pending →
        (t.feedOutput fs text).2.futures.outcomes[f]? =
        some (.failed (.plain (String.ofList (normalize t.stderr))))) := by
  obtain ⟨pending, bodies, hpending, hbodies⟩ := of_first? hfirst
  have herrors : (normalize t.stderr).isEmpty = false := by
    rwa [List.isEmpty_eq_false_iff]
  unfold feedOutput takeOutput
  simp only [hbodies, hpending, assign, completeAll_cons]
  refine ⟨rfl, fun hbody => ?_, fun hbody hopen => ?_⟩
  · have hbody : (normalize body).isEmpty = false := by rwa [List.isEmpty_eq_false_iff]
    refine List.mem_append_left _ ?_
    unfold conclude
    simp [herrors, hbody]
  · have houtcome : (conclude t.profile ⟨f, body, t.stderr⟩).1 =
        .failed (.plain (String.ofList (normalize t.stderr))) := by
      unfold conclude
      simp [herrors, hbody]
    rw [houtcome]
    refine (completeAll_closes _ _ _).kept f _ ?_ (by simp)
    rw [Futures.settle_getElem?, if_pos rfl, hopen]
    rfl

theorem failOldest_stderr (t : Transport) (fs : Futures) (first rest : SessionError) :
    (t.failOldest fs first rest).1.stderr = t.stderr := by
  unfold failOldest
  split <;> rfl

theorem send_withErrors (t : Transport) (fs : Futures) (input : Input) (errors : List Char) :
    (t.withErrors errors).send fs input =
      (t.send fs input).map fun taken => (taken.1.withErrors errors, taken.2) := by
  unfold send
  have hprofile : (t.withErrors errors).profile = t.profile := rfl
  rw [hprofile]
  cases writeFault? t.profile input <;> rfl

end Transport

/-! ## The processes of a runner -/

/-- The process with other error text. -/
def Process.withErrors (p : Process) (text : List Char) : Process :=
  { p with transport := p.transport.withErrors text }

namespace Runner

/-- The runner with other error text of a process. -/
def withErrors (r : Runner) (i : Nat) (text : List Char) : Runner :=
  r.modify i fun p => p.withErrors text

/-- The error text of a process that is not yet used. -/
def errors? (r : Runner) (i : Nat) : Option (List Char) :=
  (r.processes[i]?).map (·.transport.stderr)

section

variable {r : Runner} {i : Nat}

theorem withErrors_process {j : Nat} {p : Process} (hp : r.processes[j]? = some p) (text : List Char) :
    (r.withErrors i text).processes[j]? =
      some (p.withErrors (if j = i then text else p.transport.stderr)) := by
  unfold withErrors
  rw [modify_getElem?, hp]
  by_cases hj : i = j
  · rw [if_pos hj, if_pos hj.symm]
    rfl
  · rw [if_neg hj, if_neg (Ne.symm hj)]
    rfl

theorem withErrors_none {j : Nat} (hp : r.processes[j]? = none) (text : List Char) :
    (r.withErrors i text).processes[j]? = none := by
  unfold withErrors
  rw [modify_getElem?, hp]
  split <;> rfl

theorem withErrors_length (text : List Char) : (r.withErrors i text).processes.length = r.processes.length :=
  List.length_modify ..

/-- Other text in the place of what is there anyway changes nothing. -/
theorem withErrors_self {text : List Char} (h : r.errors? i = some text) : r.withErrors i text = r := by
  have hsame : r.modify i (fun p => p.withErrors text) = r.modify i id := by
    refine modify_congr fun p hp => ?_
    unfold errors? at h
    rw [hp] at h
    cases h
    rfl
  exact hsame.trans (by unfold modify; rw [List.modify_id])

theorem errors?_withErrors (hi : i < r.processes.length) (text : List Char) :
    (r.withErrors i text).errors? i = some text := by
  unfold errors?
  rw [withErrors_process (List.getElem?_eq_getElem hi), if_pos rfl]
  rfl

/-- A change of another process has nothing to do with it. -/
theorem modify_withErrors_ne {j : Nat} (hj : j ≠ i) (f : Process → Process) (text : List Char) :
    (r.withErrors i text).modify j f = (r.modify j f).withErrors i text := by
  unfold withErrors modify
  dsimp only
  rw [List.modify_modify_ne _ _ _ (Ne.symm hj)]

/-- A change of a process that passes error text on, or drops it, does so with any. -/
theorem withErrors_modify {f : Process → Process} {gone : Bool}
    (h : ∀ p text, f (p.withErrors text) = (f p).withErrors (left gone text)) (j : Nat) (text : List Char) :
    (r.withErrors i text).modify j f = (r.modify j f).withErrors i (left (gone && decide (j = i)) text) := by
  by_cases hj : j = i
  · subst hj
    rw [decide_eq_true rfl, Bool.and_true]
    unfold withErrors modify
    dsimp only
    rw [List.modify_modify_eq, List.modify_modify_eq]
    congr 2
    funext p
    exact h p text
  · rw [decide_eq_false hj, Bool.and_false]
    exact modify_withErrors_ne hj f text

/-- So does a new transport that has what is left of the error text of the old one. -/
theorem withErrors_transport {j : Nat} {p : Process} {t : Transport} {gone : Bool}
    (ht : t.stderr = left gone p.transport.stderr) (text : List Char) :
    ((r.withErrors i text).modify j fun p' =>
        { p' with transport := t.withErrors (left gone (if j = i then text else p.transport.stderr)) }) =
      (r.modify j fun p' => { p' with transport := t }).withErrors i (left (gone && decide (j = i)) text) := by
  by_cases hj : j = i
  · simp only [hj, if_true, decide_true, Bool.and_true]
    unfold withErrors modify
    dsimp only
    rw [List.modify_modify_eq, List.modify_modify_eq]
    rfl
  · have hsame : t.withErrors (left gone p.transport.stderr) = t := by
      rw [← ht]
      rfl
    rw [if_neg hj, hsame, decide_eq_false hj, Bool.and_false]
    exact modify_withErrors_ne hj _ text

/-! ## What a runner does -/

theorem act_withErrors (effects : List Effect) (text : List Char) :
    (r.withErrors i text).act effects = (r.act effects).withErrors i text := rfl

theorem exitCode_withErrors (j : Nat) (text : List Char) :
    ((r.withErrors i text).processes[j]?).bind (·.exitCode) = (r.processes[j]?).bind (·.exitCode) := by
  cases hp : r.processes[j]? with
  | none => rw [withErrors_none hp]
  | some p =>
    rw [withErrors_process hp]
    rfl

theorem kill_withErrors (j : Nat) (text : List Char) :
    (r.withErrors i text).kill j = (r.kill j).withErrors i text := by
  unfold kill
  cases hp : r.processes[j]? with
  | none => rw [withErrors_none hp]
  | some p =>
    have hmodify := @withErrors_modify r i Process.kill false (fun _ _ => rfl) j text
    rw [withErrors_process hp]
    dsimp only
    rw [hmodify]
    rfl

/-- A process that is given up loses its error text. -/
theorem giveUp_withErrors (actor : Actor) (j : Nat) (exitCode : Option Int) (fault : Option String)
    (text : List Char) :
    (r.withErrors i text).giveUp actor j exitCode fault =
      (r.giveUp actor j exitCode fault).withErrors i (left (decide (j = i)) text) := by
  unfold giveUp
  cases hp : r.processes[j]? with
  | none =>
    rw [withErrors_none hp]
    by_cases hj : j = i
    · subst hj
      dsimp only
      unfold withErrors
      exact modify_congr fun p hp' => by rw [hp] at hp'; cases hp'
    · simp [hj, left]
  | some p =>
    rw [withErrors_process hp]
    -- the texts not yet used are forgotten first
    have hclear (text : List Char) :
        (p.withErrors text).transport.clearBuffers = p.transport.clearBuffers := rfl
    dsimp only
    rw [hclear]
    let given := p.transport.clearBuffers.failOldest r.futures ⟨r.lostMessage exitCode fault, exitCode⟩
      ⟨s!"{r.profile.displayName} process exited before the command completed", exitCode⟩
    have hstderr : given.1.stderr = [] := Transport.failOldest_stderr _ _ _ _
    have hmodify := @withErrors_modify
      (r.act [.log actor (.sessionError r.profile.name (r.lostMessage exitCode fault)
        (if fault.isSome then "OSError" else "ProcessExited") exitCode)]) i
      (fun p => ({ p with transport := given.1 } : Process).closeInput) true
      (fun p text => by
        unfold Process.withErrors Process.closeInput Transport.withErrors left
        rw [if_pos rfl, ← hstderr]) j text
    exact congrArg (fun r' : Runner => { r' with futures := given.2 }) hmodify

theorem giveUp_length (r : Runner) (actor : Actor) (j : Nat) (exitCode : Option Int) (fault : Option String) :
    (r.giveUp actor j exitCode fault).processes.length = r.processes.length := by
  unfold giveUp
  split
  · rfl
  · exact List.length_modify ..

theorem discard_withErrors (j : Nat) (text : List Char) :
    (r.withErrors i text).discard j =
      (r.discard j).withErrors i (left (decide (r.current = some j) && decide (j = i)) text) := by
  unfold discard
  have hcurrent : (r.withErrors i text).current = r.current := rfl
  rw [hcurrent]
  by_cases hj : r.current = some j
  · have hidle : ({ r.withErrors i text with current := none } : Runner) =
        ({ r with current := none } : Runner).withErrors i text := rfl
    rw [if_pos hj, if_pos hj, hidle, decide_eq_true hj]
    dsimp only
    rw [kill_withErrors, exitCode_withErrors, giveUp_withErrors]
    rfl
  · rw [if_neg hj, if_neg hj, decide_eq_false hj]
    rfl

/-- The process that is started is another one. -/
theorem spawn_withErrors (hi : i < r.processes.length) (text : List Char) :
    (r.withErrors i text).spawn = (r.spawn.1, r.spawn.2.withErrors i text) := by
  have happend (p : Process) : (r.processes ++ [p]).modify i (·.withErrors text) =
      r.processes.modify i (·.withErrors text) ++ [p] := by
    apply List.ext_getElem?
    intro j
    rw [List.getElem?_modify]
    rcases Nat.lt_or_ge j r.processes.length with hj | hj
    · rw [List.getElem?_append_left hj, List.getElem?_append_left (by rwa [List.length_modify]),
        List.getElem?_modify]
    · rw [List.getElem?_append_right hj, List.getElem?_append_right (by rwa [List.length_modify]),
        List.length_modify]
      have hne : i ≠ j := by omega
      simp [hne]
  unfold spawn withErrors modify act
  dsimp only
  cases r.host.lookup.command r.profile.command r.profile.installHint with
  | error e => rfl
  | ok command =>
    dsimp only
    cases r.host.spawnFault? command with
    | some fault => rfl
    | none =>
      dsimp only
      cases Transport.new? r.profile with
      | none => rfl
      | some transport =>
        dsimp only
        rw [happend, List.length_modify]

theorem ensureStarted_withErrors (hi : i < r.processes.length) : ∃ gone, ∀ text,
    (r.withErrors i text).ensureStarted =
      (r.ensureStarted.1, r.ensureStarted.2.withErrors i (left gone text)) := by
  unfold ensureStarted
  have hcurrent (text : List Char) : (r.withErrors i text).current = r.current := rfl
  simp only [hcurrent]
  cases r.current with
  | none => exact ⟨false, fun text => spawn_withErrors hi text⟩
  | some j =>
    dsimp only
    simp only [exitCode_withErrors]
    cases (r.processes[j]?).bind (·.exitCode) with
    | none => exact ⟨false, fun _ => rfl⟩
    | some code =>
      let lost := ({ r with current := none } : Runner).giveUp .caller j (some code) none
      have hlost : i < lost.processes.length := by
        dsimp only [lost]
        rwa [giveUp_length]
      refine ⟨decide (j = i), fun text => ?_⟩
      have hidle : ({ r.withErrors i text with current := none } : Runner) =
          ({ r with current := none } : Runner).withErrors i text := rfl
      dsimp only
      rw [← spawn_withErrors hlost, ← giveUp_withErrors, ← hidle]

theorem reply_of_nil (h : r.host.replies = []) (j : Nat) : r.reply j = r := by
  unfold reply
  rw [h]

/-- Error text is passed on when a command is written, if that is not replied to. -/
theorem write_withErrors (hplain : r.host.replies = []) (j : Nat) (command : String) : ∃ gone, ∀ text,
    (r.withErrors i text).write j command =
      ((r.write j command).1, (r.write j command).2.withErrors i (left gone text)) := by
  unfold write
  cases hp : r.processes[j]? with
  | none =>
    refine ⟨false, fun text => ?_⟩
    rw [withErrors_none hp]
    rfl
  | some p =>
    have hsends (errors : List Char) : (p.withErrors errors).transport.send r.futures p.input =
        (p.transport.send r.futures p.input).map fun taken => (taken.1.withErrors errors, taken.2) :=
      p.transport.send_withErrors r.futures p.input errors
    have hfutures (text : List Char) : (r.withErrors i text).futures = r.futures := rfl
    have hinput (errors : List Char) : (p.withErrors errors).input = p.input := rfl
    cases hsend : p.transport.send r.futures p.input with
    | ok taken =>
      -- the queue is longer, and no reply waits that would be read into the transport
      obtain ⟨t, fs, f⟩ := taken
      have ht : t.stderr = p.transport.stderr := by
        rw [(Transport.send_ok hsend).1]
        rfl
      refine ⟨false, fun text => ?_⟩
      have htransport := @withErrors_transport r i j p t false ht text
      rw [withErrors_process hp]
      dsimp only
      rw [hfutures, hinput, hsends, hsend]
      dsimp only [Except.map]
      rw [reply_of_nil (by exact hplain), reply_of_nil (by exact hplain)]
      let written (r' : Runner) : Runner := ({ r' with futures := fs } : Runner).act
        ((Transport.linesOut r.profile p.input command).map (Effect.write p.pid))
      exact congrArg (fun r' => ((.ok f : Except SessionError Nat), written r')) htransport
    | error e =>
      -- the process is lost with its text
      refine ⟨decide (r.current = some j) && decide (j = i), fun text => ?_⟩
      rw [withErrors_process hp]
      dsimp only
      rw [hfutures, hinput, hsends, hsend]
      dsimp only [Except.map]
      rw [act_withErrors, discard_withErrors]
      rfl

theorem send_withErrors (hi : i < r.processes.length) (hplain : r.host.replies = []) (command : String) :
    ∃ gone, ∀ text, (r.withErrors i text).send command =
      ((r.send command).1, (r.send command).2.withErrors i (left gone text)) := by
  obtain ⟨gone, hstart⟩ := ensureStarted_withErrors hi
  have hdisposed (text : List Char) : (r.withErrors i text).isDisposed = r.isDisposed := rfl
  unfold send
  simp only [hdisposed, hstart]
  cases r.isDisposed with
  | true => exact ⟨false, fun _ => rfl⟩
  | false =>
    cases hstarted : r.ensureStarted with
    | mk result r' =>
      cases result with
      | error e => cases e <;> exact ⟨gone, fun _ => rfl⟩
      | ok j =>
        have hplain' : r'.host.replies = [] := (ensureStarted_place hstarted).2.trans hplain
        obtain ⟨gone', hwrite⟩ := @write_withErrors r' i hplain' j command
        refine ⟨gone || gone', fun text => ?_⟩
        simp only [Bool.false_eq_true, if_false]
        rw [hwrite, left_left]

theorem Posts.longer {posted : Option Nat} {pids : List Nat} {r' : Runner} (h : Posts posted pids r r') :
    r.processes.length ≤ r'.processes.length := by
  have hlonger := h.places.length_le
  rwa [Runner.pids, Runner.pids, List.length_map, List.length_map] at hlonger

theorem invoke_withErrors (hsane : Sane r) (hi : i < r.processes.length) (hplain : r.host.replies = [])
    (command : String) : ∃ gone, ∀ text, (r.withErrors i text).invoke command =
      ((r.invoke command).1, (r.invoke command).2.withErrors i (left gone text)) := by
  obtain ⟨gone, hsend⟩ := send_withErrors hi hplain command
  have hsent := send_sent hsane command
  unfold invoke
  simp only [hsend]
  cases hfirst : r.send command with
  | mk result r' =>
    rw [hfirst] at hsent
    cases hsent with
    | declined => exact ⟨gone, fun _ => rfl⟩
    | taken => exact ⟨gone, fun _ => rfl⟩
    | aborted => exact ⟨gone, fun _ => rfl⟩
    | refused hposts _ _ _ hreplies =>
      -- the line is written once more
      have hi' : i < r'.processes.length := hi.trans_le hposts.longer
      obtain ⟨gone', hagain⟩ := send_withErrors hi' (hreplies.trans hplain) command
      refine ⟨gone || gone', fun text => ?_⟩
      dsimp only
      rw [hagain, left_left]
      cases r'.send command with
      | mk result r'' =>
        cases result with
        | ok f => rfl
        | error e => cases e <;> rfl

theorem start_withErrors (hi : i < r.processes.length) (text : List Char) :
    (r.withErrors i text).start = (r.start.1, r.start.2.withErrors i text) := by
  unfold start
  rw [spawn_withErrors hi]
  have hdisposed : (r.withErrors i text).isDisposed = r.isDisposed := rfl
  have hrunning : (r.withErrors i text).isRunning = r.isRunning := rfl
  rw [hdisposed, hrunning]
  cases r.isDisposed with
  | true => rfl
  | false =>
    cases r.isRunning with
    | true => rfl
    | false =>
      cases r.spawn with
      | mk result r' => cases result <;> rfl

/-- The newest process loses its error text when the runner is disposed. -/
theorem abandon_withErrors : ∃ gone, ∀ text,
    (r.withErrors i text).abandon = r.abandon.withErrors i (left gone text) := by
  unfold abandon
  have hlast (text : List Char) : (r.withErrors i text).processes.getLast? =
      (r.withErrors i text).processes[r.processes.length - 1]? := by
    rw [List.getLast?_eq_getElem?, withErrors_length]
  simp only [hlast, withErrors_length, List.getLast?_eq_getElem?]
  cases hp : r.processes[r.processes.length - 1]? with
  | none =>
    refine ⟨false, fun text => ?_⟩
    rw [withErrors_none hp]
    rfl
  | some p =>
    refine ⟨true && decide (r.processes.length - 1 = i), fun text => ?_⟩
    rw [withErrors_process hp]
    let given := p.transport.failAll r.futures r.disposedError
    have htransport := @withErrors_transport r i (r.processes.length - 1) p given.1.clearBuffers true rfl text
    exact congrArg (fun r' : Runner => { r' with futures := given.2 }) htransport

theorem dispose_withErrors : ∃ gone, ∀ text,
    (r.withErrors i text).dispose = r.dispose.withErrors i (left gone text) := by
  obtain ⟨gone, habandon⟩ := @abandon_withErrors
    { r with isDisposed := true, current := none, generation := r.generation + 1 } i
  refine ⟨gone, fun text => ?_⟩
  have hstopped : ({ r.withErrors i text with
      isDisposed := true, current := none, generation := r.generation + 1 } : Runner) =
      ({ r with isDisposed := true, current := none, generation := r.generation + 1 } : Runner).withErrors i
        text := rfl
  have hcurrent : (r.withErrors i text).current = r.current := rfl
  have hdisposed : (r.withErrors i text).isDisposed = r.isDisposed := rfl
  have hgeneration : (r.withErrors i text).generation = r.generation := rfl
  unfold dispose
  dsimp only
  rw [hcurrent, hdisposed, hgeneration, hstopped, habandon]
  cases r.current with
  | none => cases r.isDisposed <;> rfl
  | some j =>
    dsimp only
    have hclose (r' : Runner) (text : List Char) : (r'.withErrors i text).modify j Process.closeInput =
        (r'.modify j Process.closeInput).withErrors i text :=
      @withErrors_modify r' i Process.closeInput false (fun _ _ => rfl) j text
    rw [kill_withErrors, hclose]
    cases r.isDisposed <;> rfl

theorem noteExit_withErrors (j : Nat) (code : Option Int) (text : List Char) :
    (r.withErrors i text).noteExit j code = (r.noteExit j code).withErrors i text := by
  cases code with
  | none => rfl
  | some code =>
    exact @withErrors_modify r i (fun p => { p with exitCode := some code }) false (fun _ _ => rfl) j text

theorem outputClosed_withErrors (j : Nat) (fault : Option String) : ∃ gone, ∀ text,
    (r.withErrors i text).outputClosed j fault = (r.outputClosed j fault).withErrors i (left gone text) := by
  have hunread (text : List Char) : (r.withErrors i text).modify j (fun p => { p with isRead := false }) =
      (r.modify j fun p => { p with isRead := false }).withErrors i text :=
    @withErrors_modify r i (fun p => { p with isRead := false }) false (fun _ _ => rfl) j text
  unfold outputClosed
  simp only [hunread]
  generalize (r.modify j fun p => { p with isRead := false }) = r'
  -- whether the process is given up does not depend on its text
  have hgeneration (text : List Char) : ((r'.withErrors i text).processes[j]?).map (·.generation) =
      (r'.processes[j]?).map (·.generation) := by
    cases hp : r'.processes[j]? with
    | none => rw [withErrors_none hp]
    | some p =>
      rw [withErrors_process hp]
      rfl
  have hcurrent (text : List Char) : (r'.withErrors i text).current = r'.current := rfl
  have hnewest (text : List Char) : (r'.withErrors i text).generation = r'.generation := rfl
  simp only [hgeneration, hcurrent, hnewest, exitCode_withErrors]
  split
  · exact ⟨decide (j = i), fun text =>
      @giveUp_withErrors { r' with current := none } i (.reader j) j _ fault text⟩
  · exact ⟨false, fun _ => rfl⟩

/-! ## What the readers bring about -/

theorem absorb_withErrors {j : Nat} {p : Process} (hp : r.processes[j]? = some p) (actor : Actor)
    {feed : Transport → Transport × Change} (hfeed : j = i → ∃ gone, ∀ errors,
      feed (p.transport.withErrors errors) =
        ((feed p.transport).1.withErrors (left gone errors), (feed p.transport).2)) :
    ∃ gone, ∀ text, ∃ p', (r.withErrors i text).processes[j]? = some p' ∧
      (r.withErrors i text).absorb j actor (feed p'.transport).1 (feed p'.transport).2 =
        (r.absorb j actor (feed p.transport).1 (feed p.transport).2).withErrors i (left gone text) := by
  -- what is settled and noted is the same, so the change of the processes is all there is to compare
  let settled (r' : Runner) : Runner :=
    { r' with
      futures := (feed p.transport).2.futures
      effects := r.effects ++ (feed p.transport).2.events.map (.log actor) }
  by_cases hj : j = i
  · obtain ⟨gone, hfeed⟩ := hfeed hj
    have hleft : (feed p.transport).1.stderr = left gone p.transport.stderr :=
      congrArg (·.1.stderr) (hfeed p.transport.stderr)
    refine ⟨gone && decide (j = i), fun text => ⟨_, withErrors_process hp text, ?_⟩⟩
    have htransport := @withErrors_transport r i j p (feed p.transport).1 gone hleft text
    have hfed : feed (p.withErrors (if j = i then text else p.transport.stderr)).transport = _ := hfeed _
    rw [hfed]
    exact congrArg settled htransport
  · refine ⟨false, fun text => ⟨_, withErrors_process hp text, ?_⟩⟩
    rw [if_neg hj]
    exact congrArg settled
      (modify_withErrors_ne hj (fun p' => { p' with transport := (feed p.transport).1 }) text)

theorem readOutput_withErrors {j : Nat} {bytes : List UInt8}
    (hsilent : ∀ p, r.processes[j]? = some p → j = i →
      p.transport.Silent r.futures (p.transport.decodeOutput bytes).1) :
    ∃ gone, ∀ text, (r.withErrors i text).readOutput j bytes =
      (r.readOutput j bytes).withErrors i (left gone text) := by
  cases hp : r.processes[j]? with
  | none =>
    refine ⟨false, fun text => ?_⟩
    unfold readOutput
    rw [withErrors_none hp, hp]
    rfl
  | some p =>
    obtain ⟨gone, habsorb⟩ := @absorb_withErrors r i j p hp (.reader j) (·.receiveOutput r.futures bytes)
      fun hj => Transport.feedOutput_withErrors (t := (p.transport.decodeOutput bytes).2) (hsilent p hp hj)
    refine ⟨gone, fun text => ?_⟩
    obtain ⟨p', hp', hsame⟩ := habsorb text
    unfold readOutput
    rw [hp', hp]
    exact hsame

theorem endOutput_withErrors {j : Nat} (hsilent : ∀ p, r.processes[j]? = some p → j = i →
      p.transport.Silent r.futures p.transport.flushOutput.1) :
    ∃ gone, ∀ text, (r.withErrors i text).endOutput j = (r.endOutput j).withErrors i (left gone text) := by
  cases hp : r.processes[j]? with
  | none =>
    refine ⟨false, fun text => ?_⟩
    unfold endOutput
    rw [withErrors_none hp, hp]
    rfl
  | some p =>
    obtain ⟨gone, habsorb⟩ := @absorb_withErrors r i j p hp (.reader j) (·.endOutput r.futures)
      fun hj => Transport.feedOutput_withErrors (t := p.transport.flushOutput.2) (hsilent p hp hj)
    obtain ⟨gone', hclosed⟩ := @outputClosed_withErrors
      (r.absorb j (.reader j) (p.transport.endOutput r.futures).1 (p.transport.endOutput r.futures).2) i j none
    refine ⟨gone || gone', fun text => ?_⟩
    obtain ⟨p', hp', hsame⟩ := habsorb text
    unfold endOutput
    rw [hp', hp]
    dsimp only
    rw [← left_left, ← hclosed, ← hsame]
    rfl

/-! ## Text that is told of -/

/-- What becomes of the error text of a transport when a response goes to an answer and is the first to do
so. -/
structure Told (r r' : Runner) (i : Nat) (t : Transport) (f : Nat) (body : List Char) : Prop where
  emptied : r'.errors? i = some []
  /-- It is noted beside an output. -/
  noted : normalize body ≠ [] → ∃ new, r'.effects = r.effects ++ new ∧
    .log (.reader i) (.stderrDiscarded t.profile.name (String.ofList (normalize t.stderr))
      (normalize body).length) ∈ new
  /-- Without one it fails an answer that is open. -/
  failed : normalize body = [] → r.futures.outcomes[f]? = some .pending →
    r'.futures.outcomes[f]? = some (.failed (.plain (String.ofList (normalize t.stderr))))

variable {p : Process} {f : Nat} {body : List Char}

/-- The transport that takes the text in differs from the one of the process in its decoder at most. -/
theorem absorb_told (hp : r.processes[i]? = some p) (herrors : normalize p.transport.stderr ≠ [])
    {outDecoder : Text.Utf8.State} {text : List Char} (hfirst : p.transport.first? text = some (f, body)) :
    let fed := ({ p.transport with outDecoder } : Transport).feedOutput r.futures text
    Told r (r.absorb i (.reader i) fed.1 fed.2) i p.transport f body := by
  intro fed
  obtain ⟨hempty, hnoted, hfailed⟩ :=
    @Transport.feedOutput_reports { p.transport with outDecoder } r.futures text f body hfirst herrors
  refine
    { emptied := ?_, noted := fun hbody => ⟨_, rfl, List.mem_map_of_mem (hnoted hbody)⟩, failed := hfailed }
  have habsorbed : (r.absorb i (.reader i) fed.1 fed.2).processes[i]? = some { p with transport := fed.1 } := by
    show (r.modify i _).processes[i]? = _
    rw [modify_getElem?, if_pos rfl, hp]
    rfl
  unfold errors?
  rw [habsorbed]
  exact congrArg some hempty

/-- What is told of stays so when the output is closed. -/
theorem Told.outputClosed {r' : Runner} (h : Told r r' i p.transport f body) (hsane : Sane r')
    (fault : Option String) : Told r (r'.outputClosed i fault) i p.transport f body := by
  obtain ⟨-, hextends⟩ := outputClosed_moves r' i fault hsane
  constructor
  · -- there is no text, so there is none afterwards whether the process is given up or not
    obtain ⟨gone, hclosed⟩ := @outputClosed_withErrors r' i i fault
    have hnone : left gone [] = [] := by cases gone <;> rfl
    have hi : i < r'.processes.length := by
      obtain ⟨q, hq, -⟩ := Option.map_eq_some_iff.1 h.emptied
      exact (List.getElem?_eq_some_iff.1 hq).1
    have hempty := hclosed []
    rw [withErrors_self h.emptied, hnone] at hempty
    rw [hempty]
    exact errors?_withErrors (hi.trans_le (outputClosed_drains r' i fault).longer) []
  · intro hbody
    obtain ⟨new, heffects, hin⟩ := h.noted hbody
    obtain ⟨more, heffects', -⟩ := hextends.quiet
    exact ⟨new ++ more, by rw [heffects', heffects, List.append_assoc], List.mem_append_left _ hin⟩
  · intro hbody hopen
    exact hextends.kept f _ (h.failed hbody hopen) (by simp)

end
end Runner

/-! ## The life of a runner -/

/-- The output text that an event gives the process at a place, if it gives some. -/
def Event.outputText? (p : Process) (i : Nat) : Event → Option (List Char)
  | .output j bytes => if j = i then some (p.transport.decodeOutput bytes).1 else none
  | .ended j _ => if j = i then some p.transport.flushOutput.1 else none
  | _ => none

namespace Lifetime

/-- The runner with other error text of a process. -/
def withErrors (l : Lifetime) (i : Nat) (text : List Char) : Lifetime :=
  { l with runner := l.runner.withErrors i text }

/-- The first response that an event brings a process, with the answer that it goes to. -/
def first? (l : Lifetime) (e : Event) (i : Nat) : Option (Nat × List Char) :=
  (l.runner.processes[i]?).bind fun p => (e.outputText? p i).bind p.transport.first?

/-- No response went to an answer, or the first one that did had no output and its answer was open no more. -/
def Silent (l : Lifetime) (e : Event) (i : Nat) : Prop :=
  ∀ f body, l.first? e i = some (f, body) → l.outcome? f ≠ some .pending ∧ normalize body = []

/-- The error text that a process has written is there still, or it is told of: it fails the answer that the
first response goes to, which was open, or it is noted beside the output. -/
inductive Accounted (l : Lifetime) (e : Event) (i : Nat) (p : Process) : Prop
  | kept {more : List Char} : (l.step e).runner.errors? i = some (p.transport.stderr ++ more) →
      Accounted l e i p
  | failed {f : Nat} {body : List Char} : l.first? e i = some (f, body) → normalize body = [] →
      l.outcome? f = some .pending →
      (l.step e).outcome? f = some (.failed (.plain (String.ofList (normalize p.transport.stderr)))) →
      Accounted l e i p
  | noted {f : Nat} {body : List Char} {new : List Effect} : l.first? e i = some (f, body) →
      normalize body ≠ [] → (l.step e).runner.effects = l.runner.effects ++ new →
      .log (.reader i) (.stderrDiscarded p.transport.profile.name
        (String.ofList (normalize p.transport.stderr)) (normalize body).length) ∈ new → Accounted l e i p

/-- The error text of a process is gone, and there is no trace of it: nothing else would have happened if the
process had not written it. -/
structure Untold (l : Lifetime) (e : Event) (i : Nat) : Prop where
  emptied : (l.step e).runner.errors? i = some []
  silent : l.Silent e i
  untraced : (l.withErrors i []).step e = l.step e

variable {l : Lifetime} {e : Event} {i : Nat} {p : Process}

theorem noteExit_process {r : Runner} (hp : r.processes[i]? = some p) (exitCode : Option Int) :
    ∃ p', (r.noteExit i exitCode).processes[i]? = some p' ∧ p'.transport = p.transport ∧
      (r.noteExit i exitCode).futures = r.futures ∧ (r.noteExit i exitCode).effects = r.effects := by
  cases exitCode with
  | none => exact ⟨p, hp, rfl, rfl, rfl⟩
  | some code =>
    refine ⟨{ p with exitCode := some code }, ?_, rfl, rfl, rfl⟩
    show (r.modify i _).processes[i]? = _
    rw [Runner.modify_getElem?, if_pos rfl, hp]
    rfl

/-- The transport that takes the output in is silent too. -/
theorem Silent.output {bytes : List UInt8} (h : l.Silent (.output i bytes) i)
    (hp : l.runner.processes[i]? = some p) :
    p.transport.Silent l.runner.futures (p.transport.decodeOutput bytes).1 := by
  intro f body hfirst
  refine h f body ?_
  simp only [first?, hp, Event.outputText?, if_true, Option.bind_some, hfirst]

theorem Silent.ended {exitCode : Option Int} (h : l.Silent (.ended i exitCode) i)
    (hp : l.runner.processes[i]? = some p) {p' : Process}
    (hp' : (l.runner.noteExit i exitCode).processes[i]? = some p') :
    p'.transport.Silent (l.runner.noteExit i exitCode).futures p'.transport.flushOutput.1 := by
  obtain ⟨q, hq, htransport, hfutures, -⟩ := noteExit_process hp exitCode
  obtain rfl : p' = q := Option.some.inj (hp'.symm.trans hq)
  rw [htransport, hfutures]
  intro f body hfirst
  refine h f body ?_
  simp only [first?, hp, Event.outputText?, if_true, Option.bind_some, hfirst]

/-- Only the first response can tell of error text. -/
theorem step_withErrors (hkept : Kept l) (hp : l.runner.processes[i]? = some p) (hplain : l.IsPlain e)
    (hother : ∀ bytes, e ≠ .errors i bytes) (hsilent : l.Silent e i) :
    ∃ gone, ∀ text, (l.withErrors i text).step e = (l.step e).withErrors i (left gone text) := by
  have hi : i < l.runner.processes.length := (List.getElem?_eq_some_iff.1 hp).1
  let following (r : Runner) : Lifetime := { l with runner := r }
  cases e with
  | start => exact ⟨false, fun text => congrArg (fun s => following s.2) (Runner.start_withErrors hi text)⟩
  | invoke command =>
    obtain ⟨gone, hinvoke⟩ := Runner.invoke_withErrors hkept.sane hi hplain command
    refine ⟨gone, fun text => ?_⟩
    unfold step withErrors
    dsimp only
    rw [hinvoke]
    cases l.runner.invoke command with
    | mk result r => cases result <;> rfl
  | cancel f => exact ⟨false, fun _ => rfl⟩
  | dispose =>
    obtain ⟨gone, hdispose⟩ := @Runner.dispose_withErrors l.runner i
    exact ⟨gone, fun text => congrArg following (hdispose text)⟩
  | output j bytes =>
    have hread := @Runner.readOutput_withErrors l.runner i j bytes fun p' hp' hj => by
      subst hj
      exact hsilent.output hp'
    obtain ⟨gone, hread⟩ := hread
    exact ⟨gone, fun text => congrArg following (hread text)⟩
  | errors j bytes =>
    by_cases hj : j = i
    · subst hj
      exact absurd rfl (hother bytes)
    · exact ⟨false, fun text => congrArg following (Runner.modify_withErrors_ne hj _ text)⟩
  | ended j exitCode =>
    have hended := @Runner.endOutput_withErrors (l.runner.noteExit j exitCode) i j fun p' hp' hj => by
      subst hj
      exact hsilent.ended hp hp'
    obtain ⟨gone, hended⟩ := hended
    refine ⟨gone, fun text => ?_⟩
    have hnoted := congrArg (·.endOutput j) (@Runner.noteExit_withErrors l.runner i j exitCode text)
    exact congrArg following (hnoted.trans (hended text))
  | broken j exitCode reason =>
    obtain ⟨gone, hclosed⟩ :=
      @Runner.outputClosed_withErrors (l.runner.noteExit j exitCode) i j (some reason)
    refine ⟨gone, fun text => ?_⟩
    have hnoted := congrArg (·.outputClosed j (some reason))
      (@Runner.noteExit_withErrors l.runner i j exitCode text)
    exact congrArg following (hnoted.trans (hclosed text))
  | turn j exitCode input isKillable =>
    refine ⟨false, fun text => congrArg following ?_⟩
    exact @Runner.withErrors_modify l.runner i (fun p => { p with exitCode, input, isKillable }) false
      (fun _ _ => rfl) j text
  | world host => exact ⟨false, fun _ => rfl⟩

/-- The first response tells of error text. -/
theorem step_told (hkept : Kept l) (hp : l.runner.processes[i]? = some p)
    (herrors : normalize p.transport.stderr ≠ []) {f : Nat} {body : List Char}
    (hfirst : l.first? e i = some (f, body)) : Runner.Told l.runner (l.step e).runner i p.transport f body := by
  simp only [first?, hp, Option.bind_some] at hfirst
  obtain ⟨text, htext, hfirst⟩ := Option.bind_eq_some_iff.1 hfirst
  cases e with
  | output j bytes =>
    simp only [Event.outputText?, Option.ite_none_right_eq_some, Option.some.injEq] at htext
    obtain ⟨rfl, rfl⟩ := htext
    have htold :=
      @Runner.absorb_told _ j p f body hp herrors (Text.Utf8.run p.transport.outDecoder bytes).1 _ hfirst
    unfold step Runner.readOutput
    dsimp only
    rw [hp]
    exact htold
  | ended j exitCode =>
    simp only [Event.outputText?, Option.ite_none_right_eq_some, Option.some.injEq] at htext
    obtain ⟨rfl, rfl⟩ := htext
    obtain ⟨p', hp', htransport, hfutures, heffects⟩ := noteExit_process hp exitCode
    obtain ⟨hsane, -⟩ := Runner.noteExit_moves l.runner j exitCode hkept.sane
    rw [← htransport] at herrors hfirst
    have htold := (@Runner.absorb_told _ j p' f body hp' herrors .start _ hfirst).outputClosed
      (Runner.absorb_moves hp' (.reader j) (Transport.endOutput_serves _ _) hsane).1 none
    unfold step Runner.endOutput
    dsimp only
    rw [hp', ← htransport]
    refine { emptied := htold.emptied, noted := ?_, failed := ?_ }
    · rw [← heffects]
      exact htold.noted
    · rw [← hfutures]
      exact htold.failed
  | _ => cases htext

/-- More error text comes after the text that is there. -/
theorem errors_kept (hp : l.runner.processes[i]? = some p) (bytes : List UInt8) :
    l.Accounted (.errors i bytes) i p := by
  have hmore : (l.step (.errors i bytes)).runner.errors? i =
      some (p.transport.stderr ++
        (Text.Utf8.run p.transport.errDecoder bytes).2.map Text.Utf8.Piece.toChar) := by
    show Option.map _ ((l.runner.modify i _).processes[i]?) = _
    rw [Runner.modify_getElem?, if_pos rfl, hp]
    rfl
  exact .kept hmore

/-- What the first response tells of is accounted for. -/
theorem accounted_of_not_silent (hkept : Kept l) (hp : l.runner.processes[i]? = some p)
    (herrors : normalize p.transport.stderr ≠ []) (hsilent : ¬ l.Silent e i) : l.Accounted e i p := by
  unfold Silent at hsilent
  push Not at hsilent
  obtain ⟨f, body, hfirst, hfate⟩ := hsilent
  obtain ⟨-, hnoted, hfailed⟩ := step_told hkept hp herrors hfirst
  by_cases hbody : normalize body = []
  · have hopen : l.outcome? f = some .pending := by
      by_contra hclosed
      exact hfate hclosed hbody
    exact .failed hfirst hbody hopen (hfailed hbody hopen)
  · obtain ⟨new, heffects, hin⟩ := hnoted hbody
    exact .noted hfirst hbody heffects hin

/-- Text that is not told of is kept or is gone without a trace. -/
theorem accounted_or_untold (hkept : Kept l) (hp : l.runner.processes[i]? = some p) (hplain : l.IsPlain e)
    (hother : ∀ bytes, e ≠ .errors i bytes) (hsilent : l.Silent e i) :
    l.Accounted e i p ∨ l.Untold e i := by
  have hi : i < l.runner.processes.length := (List.getElem?_eq_some_iff.1 hp).1
  obtain ⟨gone, hstep⟩ := step_withErrors hkept hp hplain hother hsilent
  -- with the text that is there the event is itself
  have hleft : (l.step e).runner.errors? i = some (left gone p.transport.stderr) := by
    obtain ⟨pids, hposts⟩ := step_posts hkept.sane e
    have hself : l.withErrors i p.transport.stderr = l := by
      unfold withErrors
      rw [Runner.withErrors_self (by unfold Runner.errors?; rw [hp]; rfl)]
    have hsame := hstep p.transport.stderr
    rw [hself] at hsame
    rw [hsame]
    exact Runner.errors?_withErrors (hi.trans_le hposts.longer) _
  cases gone with
  | false =>
    rw [← List.append_nil (left false _)] at hleft
    exact .inl (.kept hleft)
  | true =>
    have hsame : (l.step e).runner.withErrors i (left true []) = (l.step e).runner :=
      Runner.withErrors_self hleft
    refine .inr { emptied := hleft, silent := hsilent, untraced := (hstep []).trans ?_ }
    unfold withErrors
    rw [hsame]

theorem untold_iff (hkept : Kept l) (hp : l.runner.processes[i]? = some p) (hplain : l.IsPlain e)
    (herrors : normalize p.transport.stderr ≠ []) : l.Untold e i ↔ ¬ l.Accounted e i p := by
  constructor
  · rintro ⟨hempty, hsilent, -⟩ haccounted
    cases haccounted with
    | kept hstill =>
      rw [hempty] at hstill
      obtain ⟨hnone, -⟩ := List.append_eq_nil_iff.1 (Option.some.inj hstill).symm
      rw [hnone] at herrors
      exact herrors rfl
    | failed hfirst _ hopen => exact (hsilent _ _ hfirst).1 hopen
    | noted hfirst hbody => exact hbody (hsilent _ _ hfirst).2
  · intro hnot
    have hsilent : l.Silent e i := by_contra fun htold => hnot (accounted_of_not_silent hkept hp herrors htold)
    refine (accounted_or_untold hkept hp hplain ?_ hsilent).resolve_left hnot
    rintro bytes rfl
    exact hnot (errors_kept hp bytes)

/-- Whatever has happened to a runner, error text that says something stays, fails the answer that waited or
is noted, unless it is gone as if it had never been written. In an event that has a process reply to a line
this is so for each of its parts. -/
theorem run_error_text (profile : Profile) (host : Host) (events : List Event) :
    let l := (new profile host).run events
    (∀ e i p, l.runner.processes[i]? = some p → l.IsPlain e → normalize p.transport.stderr ≠ [] →
        (l.Untold e i ↔ ¬ l.Accounted e i p)) ∧
      ∀ e, ∃ parts, l.ArePlain parts ∧ l.run parts = l.step e := by
  intro l
  have hkept : Kept l := run_kept (new_kept profile host) events
  exact ⟨fun e i p hp hplain herrors => untold_iff hkept hp hplain herrors, l.exists_plain⟩

/-- A command waits and the process has written an error text when it ends. The text is told nowhere. -/
theorem run_error_text_exited :
    let profile : Profile := { Profile.sh with sentinel := "." }
    let host : Host :=
      { lookup := { which := [("sh", "/bin/sh")], executables := [], files := .empty }
        spawnFaults := [], gone := [], nextInputs := [], replies := [], latency := 0 }
    let l := (new profile host).run [.start, .invoke "ls", .errors 0 [0x62, 0x6f, 0x6f, 0x6d]]
    let e : Event := .ended 0 (some 1)
    l.IsPlain e ∧ l.Untold e 0 ∧
      ∃ p, l.runner.processes[0]? = some p ∧ normalize p.transport.stderr = ['b', 'o', 'o', 'm'] := by
  intro profile host l e
  have hplain : l.IsPlain e := trivial
  have herrors : l.runner.errors? 0 = some ['b', 'o', 'o', 'm'] := by cbv
  have hempty : (l.step e).runner.errors? 0 = some [] := by cbv
  have hfirst : l.first? e 0 = none := by cbv
  obtain ⟨p, hp, hstderr⟩ := Option.map_eq_some_iff.1 herrors
  have htext : normalize p.transport.stderr = ['b', 'o', 'o', 'm'] := by
    rw [hstderr]
    decide
  refine ⟨hplain, ?_, p, hp, htext⟩
  refine ((run_error_text profile host _).1 e 0 p hp hplain (by rw [htext]; decide)).2 fun haccounted => ?_
  cases haccounted with
  | kept hstill =>
    rw [hempty, hstderr] at hstill
    cases hstill
  | failed hsome => rw [hfirst] at hsome; cases hsome
  | noted hsome => rw [hfirst] at hsome; cases hsome

/-- The command fails since the process has ended, and no failure and no note has the text that the process
wrote about it. -/
theorem not_error_text_told_exited :
    let profile : Profile := { Profile.sh with sentinel := "." }
    let host : Host :=
      { lookup := { which := [("sh", "/bin/sh")], executables := [], files := .empty }
        spawnFaults := [], gone := [], nextInputs := [], replies := [], latency := 0 }
    let l := (new profile host).run [.start, .invoke "ls", .errors 0 [0x62, 0x6f, 0x6f, 0x6d]]
    let after := l.step (.ended 0 (some 1))
    l.runner.errors? 0 = some ['b', 'o', 'o', 'm'] ∧ l.outcome? 0 = some .pending ∧
      after.runner.errors? 0 = some [] ∧
      after.runner.futures.outcomes = [.failed ⟨"sh process exited unexpectedly with code 1", some 1⟩] ∧
      ∀ a ∈ after.runner.effects, ∀ actor name text length,
        a ≠ .log actor (.stderrDiscarded name text length) := by
  intro profile host l after
  have heffects : after.runner.effects = [.spawn 1001 ["/bin/sh"],
      .log .caller (.sessionStart "sh" ["/bin/sh"] 0 (some 1001)),
      .write 1001 "ls; printf '%s%s\\n' '__SHOWAST_END_' 'OF_COMMAND__'\n",
      .log (.reader 0) (.sessionError "sh" "sh process exited unexpectedly with code 1" "ProcessExited"
        (some 1))] := by cbv
  refine ⟨by cbv, by cbv, by cbv, by cbv, ?_⟩
  rw [heffects]
  simp

end Lifetime
end ScriptTree.Interpreter
