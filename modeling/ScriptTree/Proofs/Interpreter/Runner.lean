/-
Everything a runner does keeps its books: what the readers of a process bring about and what the
caller does, whichever way a process is lost on the way. Where a process is lost, through the end of
its output, the poll, a line that is not taken or the disposal, there is a moment with no process in
use, and then nothing asked for before is open.
-/
import ScriptTree.Proofs.Interpreter.Books

namespace ScriptTree.Interpreter.Runner

/-! ## Losing the process in use -/

theorem closes_of_serves {t t' : Transport} {fs fs' : Futures} (h : Transport.Serves t fs t' fs')
    (hempty : t'.pending = []) : fs.Closes fs' t.pending := by
  obtain ⟨names, hpending, hcloses⟩ := h
  rw [hpending, hempty, List.append_nil]
  exact hcloses

/-- The process in use is lost: everything that waits for it fails. -/
theorem giveUp_moves {r : Runner} {i : Nat} (hi : r.current = some i) (actor : Actor)
    (exitCode : Option Int) (fault : Option String) :
    Moves r (({ r with current := none }).giveUp actor i exitCode fault) := by
  intro h
  obtain ⟨p, hp, -, -⟩ := h.process hi
  unfold giveUp
  simp only [hp]
  refine clear_moves h hp (fun j hj => ?_) rfl id ?_ (fun _ => ?_) rfl ⟨_, rfl, fun _ a ha => ?_⟩
  · rw [hi] at hj
    exact (Option.some.inj hj).symm
  · exact closes_of_serves (Transport.failOldest_serves p.transport.clearBuffers r.futures _ _)
      (Transport.failOldest_pending _ _ _ _)
  · exact Transport.failOldest_pending _ _ _ _
  · rw [List.mem_singleton.1 ha]
    exact id

theorem giveUp_current (r : Runner) (actor : Actor) (i : Nat) (exitCode : Option Int)
    (fault : Option String) : (r.giveUp actor i exitCode fault).current = r.current := by
  unfold giveUp
  split <;> rfl

theorem giveUp_isDisposed (r : Runner) (actor : Actor) (i : Nat) (exitCode : Option Int)
    (fault : Option String) : (r.giveUp actor i exitCode fault).isDisposed = r.isDisposed := by
  unfold giveUp
  split <;> rfl

/-! ## Starting -/

theorem spawn_moves {r : Runner} (hnone : r.current = none) (hlive : r.isDisposed = false) :
    Moves r r.spawn.2 := by
  unfold spawn
  split
  · exact .refl r
  · dsimp only
    split
    · exact (host_moves r _).trans (act_moves _ fun hd => by simp [hlive] at hd)
    · split
      · exact started_moves hnone hlive hlive rfl (.inl ⟨hnone, rfl⟩) ⟨_, rfl⟩
      · rename_i transport hnew
        refine started_moves hnone hlive hlive rfl (.inr ⟨?_, ?_⟩) ⟨_, List.append_assoc _ _ _⟩
        · show some r.processes.length = some r.queues.length
          rw [queues, List.length_map]
        · show (r.processes ++ [_]).map _ = r.processes.map _ ++ [_]
          rw [List.map_append, List.map_singleton, ← Transport.new?_pending hnew]
          rfl

/-- A process that was started is in use. -/
theorem spawn_ok {r r' : Runner} {i : Nat} (h : r.spawn = (.ok i, r')) :
    r'.current = some i ∧ r'.isDisposed = r.isDisposed := by
  unfold spawn at h
  split at h
  · cases h
  · dsimp only at h
    split at h
    · cases h
    · split at h
      · cases h
      · cases h
        exact ⟨rfl, rfl⟩

/-! ## What the readers bring about -/

theorem readErrors_moves (r : Runner) (i : Nat) (bytes : List UInt8) : Moves r (r.readErrors i bytes) :=
  modify_moves r i fun _ => ⟨rfl, rfl⟩

theorem noteExit_moves (r : Runner) (i : Nat) (code : Option Int) : Moves r (r.noteExit i code) := by
  cases code with
  | none => exact .refl r
  | some code => exact modify_moves r i fun _ => ⟨rfl, rfl⟩

theorem readOutput_moves (r : Runner) (i : Nat) (bytes : List UInt8) : Moves r (r.readOutput i bytes) := by
  unfold readOutput
  split
  · exact .refl r
  · rename_i p hp
    exact absorb_moves hp _ (Transport.receiveOutput_serves p.transport r.futures bytes)

theorem outputClosed_moves (r : Runner) (i : Nat) (fault : Option String) :
    Moves r (r.outputClosed i fault) := by
  have hunread : Moves r (r.modify i fun p => { p with isRead := false }) :=
    modify_moves r i fun _ => ⟨rfl, rfl⟩
  unfold outputClosed
  dsimp only
  split
  · rename_i h
    rw [Bool.and_eq_true, decide_eq_true_eq, decide_eq_true_eq] at h
    exact hunread.trans (giveUp_moves h.2 _ _ _)
  · exact hunread

theorem endOutput_moves (r : Runner) (i : Nat) : Moves r (r.endOutput i) := by
  unfold endOutput
  split
  · exact .refl r
  · rename_i p hp
    exact (absorb_moves hp _ (Transport.endOutput_serves p.transport r.futures)).trans
      (outputClosed_moves _ i none)

theorem emit_moves (r : Runner) (i : Nat) (e : Emission) : Moves r (r.emit i e) := by
  have hread : Moves r ((r.readErrors i e.stderr).readOutput i e.stdout) :=
    (readErrors_moves r i _).trans (readOutput_moves _ i _)
  unfold emit
  split
  · exact .refl r
  · split
    · dsimp only
      split
      · exact hread.trans ((noteExit_moves _ i _).trans (endOutput_moves _ i))
      · exact hread
    · exact noteExit_moves r i _

/-! ## What the caller brings about -/

theorem kill_moves (r : Runner) (i : Nat) : Moves r (r.kill i) := by
  unfold kill
  split
  · exact .refl r
  · refine (modify_moves (f := Process.kill) r i fun _ => ⟨rfl, rfl⟩).trans (act_moves _ fun _ a ha => ?_)
    rw [List.mem_singleton.1 ha]
    exact id

theorem kill_current (r : Runner) (i : Nat) : (r.kill i).current = r.current := by
  unfold kill
  split <;> rfl

theorem kill_idle (r : Runner) (i : Nat) :
    ({ r with current := none }).kill i = { r.kill i with current := none } := by
  unfold kill
  dsimp only
  split <;> rfl

theorem discard_moves (r : Runner) (i : Nat) : Moves r (r.discard i) := by
  unfold discard
  split
  · rename_i hi
    dsimp only
    rw [kill_idle]
    exact (kill_moves r i).trans (giveUp_moves ((kill_current r i).trans hi) _ _ _)
  · exact .refl r

theorem discard_current {r : Runner} {i : Nat} (hi : r.current = some i) : (r.discard i).current = none := by
  unfold discard
  rw [if_pos hi]
  dsimp only
  rw [giveUp_current, kill_current]

theorem reply_moves (r : Runner) (i : Nat) : Moves r (r.reply i) := by
  unfold reply
  split
  · exact .refl r
  · exact (host_moves r _).trans (emit_moves _ i _)

/-- The line is taken: the answer asked for goes to the end of the queue. -/
theorem write_taken {r : Runner} {i : Nat} {p : Process} (hi : r.current = some i)
    (hp : r.processes[i]? = some p) {t : Transport} {fs : Futures} {f : Nat}
    (hsend : p.transport.send r.futures p.input = .ok (t, fs, f)) :
    Moves r { r.modify i (fun p => { p with transport := t }) with futures := fs } := by
  obtain ⟨rfl, rfl, houtcomes⟩ := Transport.send_ok hsend
  refine ask_moves
    { current := rfl, disposed := rfl, generation := rfl, length := modify_queues_length r i _
      queues := fun j g q hq => ?_ } houtcomes (fun _ => ⟨i, p.generation, _, hi, ?_,
        List.mem_append_right p.transport.pending (List.mem_singleton_self _)⟩) (quiet_of_eq rfl)
  · rcases modify_queues
      (f := fun p' => { p' with transport := p.transport.enqueue r.futures.outcomes.length }) hq with
      ⟨p', rfl, hp', rfl, rfl⟩ | ⟨-, hq⟩
    · rw [hp] at hp'
      cases hp'
      exact ⟨p.transport.pending, by rw [queues_getElem?, hp]; rfl, .inr ⟨hi, rfl⟩⟩
    · exact ⟨q, hq, .inl rfl⟩
  · show (r.modify i _).queues[i]? = _
    rw [queues_getElem?, modify_getElem?, if_pos rfl, hp]
    rfl

theorem write_continues {r : Runner} {i : Nat} {p : Process} (hlive : r.isDisposed = false)
    (hp : r.processes[i]? = some p) {t : Transport} {fs : Futures} {f : Nat}
    (hsend : p.transport.send r.futures p.input = .ok (t, fs, f)) (command : String) :
    Moves { r.modify i (fun p => { p with transport := t }) with futures := fs } (r.write i command).2 := by
  unfold write
  simp only [hp, hsend]
  refine Moves.trans (act_moves _ fun hdead => ?_) (reply_moves _ i)
  have hdead : r.isDisposed = true := hdead
  rw [hlive] at hdead
  cases hdead

theorem write_moves {r : Runner} {i : Nat} (hi : r.current = some i) (command : String) :
    Moves r (r.write i command).2 := by
  intro h
  obtain ⟨hlive, -, -⟩ := h.inUse i hi
  obtain ⟨p, hp, -, -⟩ := h.process hi
  refine (?_ : Moves r (r.write i command).2) h
  cases hsend : p.transport.send r.futures p.input with
  | ok taken =>
    obtain ⟨t, fs, f⟩ := taken
    exact (write_taken hi hp hsend).trans (write_continues hlive hp hsend command)
  | error e =>
    unfold write
    simp only [hp, hsend]
    refine Moves.trans (act_moves r fun hdead => ?_) (discard_moves _ i)
    rw [hlive] at hdead
    cases hdead

/-- The answer to a line that was taken is one of those asked for. -/
theorem write_ok {r r' : Runner} {i : Nat} {command : String} {f : Nat} (h : Sane r) (hi : r.current = some i)
    (hw : r.write i command = (.ok f, r')) : f < r'.futures.outcomes.length := by
  obtain ⟨hlive, -, -⟩ := h.inUse i hi
  obtain ⟨p, hp, -, -⟩ := h.process hi
  cases hsend : p.transport.send r.futures p.input with
  | ok taken =>
    obtain ⟨t, fs, f'⟩ := taken
    have hmore := (write_continues hlive hp hsend command ((write_taken hi hp hsend) h).1).2.grows
    obtain ⟨-, rfl, houtcomes⟩ := Transport.send_ok hsend
    have hsame : f = r.futures.outcomes.length := by
      unfold write at hw
      simp only [hp, hsend] at hw
      exact (Except.ok.inj (congrArg Prod.fst hw)).symm
    rw [hw] at hmore
    have hmore : fs.outcomes.length ≤ r'.futures.outcomes.length := hmore
    rw [houtcomes, List.length_append, List.length_singleton] at hmore
    omega
  | error e =>
    unfold write at hw
    simp only [hp, hsend] at hw
    cases congrArg Prod.fst hw

/-- A line that is not taken costs the process. -/
theorem write_error {r : Runner} {i : Nat} {command : String} {p : Process} (hi : r.current = some i)
    (hp : r.processes[i]? = some p) (hrefused : Transport.writeFault? p.transport.profile p.input ≠ none) :
    (∃ e, (r.write i command).1 = .error e) ∧ (r.write i command).2.current = none := by
  obtain ⟨e, he⟩ := Option.ne_none_iff_exists'.1 hrefused
  unfold write Transport.send
  simp only [hp, he]
  exact ⟨⟨e, rfl⟩, discard_current hi⟩

/-! ## Sending -/

theorem ensureStarted_moves {r : Runner} (hlive : r.isDisposed = false) : Moves r r.ensureStarted.2 := by
  unfold ensureStarted
  split
  · rename_i hnone
    exact spawn_moves hnone hlive
  · rename_i i hi
    split
    · exact .refl r
    · exact (giveUp_moves hi _ _ _).trans
        (spawn_moves (giveUp_current _ _ _ _ _) ((giveUp_isDisposed _ _ _ _ _).trans hlive))

theorem ensureStarted_ok {r r' : Runner} {i : Nat} (h : r.ensureStarted = (.ok i, r')) :
    r'.current = some i ∧ r'.isDisposed = r.isDisposed := by
  unfold ensureStarted at h
  split at h
  · exact spawn_ok h
  · rename_i j hj
    split at h
    · cases h
      exact ⟨hj, rfl⟩
    · obtain ⟨hcurrent, hdisposed⟩ := spawn_ok h
      exact ⟨hcurrent, hdisposed.trans (giveUp_isDisposed _ _ _ _ _)⟩

theorem refuse_moves (r : Runner) (e : SessionError) : Moves r (r.refuse e).2 :=
  (log_moves r _ _).trans (failed_moves _ e)

/-- After a process is there, sending goes on. -/
theorem send_continues {r : Runner} (hlive : r.isDisposed = false) (command : String) :
    Moves r.ensureStarted.2 (r.send command).2 := by
  unfold send
  rw [if_neg (by simp [hlive])]
  cases hstarted : r.ensureStarted with
  | mk result r' =>
    cases result with
    | error e =>
      cases e with
      | session e => exact refuse_moves r' e
      | launch f => exact .refl r'
    | ok i => exact write_moves (ensureStarted_ok hstarted).1 command

theorem send_moves (r : Runner) (command : String) : Moves r (r.send command).2 := by
  cases hdisposed : r.isDisposed with
  | true =>
    unfold send
    rw [if_pos hdisposed]
    exact failed_moves r _
  | false => exact (ensureStarted_moves hdisposed).trans (send_continues hdisposed command)

/-- After the first attempt, a command is tried once more or is done. -/
theorem invoke_continues (r : Runner) (command : String) :
    Moves (r.send command).2 (r.invoke command).2 := by
  unfold invoke
  cases r.send command with
  | mk result r' =>
    cases result with
    | ok f => exact .refl r'
    | error e =>
      cases e with
      | launch f => exact .refl r'
      | session e =>
        dsimp only
        have hsecond := send_moves r' command
        cases hr : r'.send command with
        | mk result r'' =>
          rw [hr] at hsecond
          cases result with
          | ok f => exact hsecond
          | error e =>
            cases e with
            | launch f => exact hsecond
            | session e => exact hsecond.trans (refuse_moves r'' e)

theorem invoke_moves (r : Runner) (command : String) : Moves r (r.invoke command).2 :=
  (send_moves r command).trans (invoke_continues r command)

theorem failed_ok (r : Runner) (e : SessionError) :
    (r.failed e).1 < (r.failed e).2.futures.outcomes.length := by
  show r.futures.outcomes.length < (r.futures.outcomes ++ [_]).length
  rw [List.length_append]
  exact Nat.lt_succ_self _

theorem send_ok {r r' : Runner} {command : String} {f : Nat} (h : Sane r)
    (hs : r.send command = (.ok f, r')) : f < r'.futures.outcomes.length := by
  unfold send at hs
  cases hdisposed : r.isDisposed with
  | true =>
    rw [if_pos hdisposed] at hs
    cases hs
    exact failed_ok r _
  | false =>
    rw [if_neg (by simp [hdisposed])] at hs
    have hsane := (ensureStarted_moves hdisposed h).1
    cases hstarted : r.ensureStarted with
    | mk result r₁ =>
      rw [hstarted] at hs hsane
      cases result with
      | error e =>
        cases e with
        | session e => cases hs; exact failed_ok _ _
        | launch f => cases hs
      | ok i =>
        cases hw : r₁.write i command with
        | mk sent r₂ =>
          simp only [hw] at hs
          cases sent with
          | error e => cases hs
          | ok f' =>
            cases hs
            exact write_ok hsane (ensureStarted_ok hstarted).1 hw

/-- The answer that `invoke` names is one of those asked for. -/
theorem invoke_ok {r r' : Runner} {command : String} {f : Nat} (h : Sane r)
    (hinvoke : r.invoke command = (.ok f, r')) : f < r'.futures.outcomes.length := by
  unfold invoke at hinvoke
  have hfirst := (send_moves r command h).1
  cases hs : r.send command with
  | mk result r₁ =>
    rw [hs] at hinvoke hfirst
    cases result with
    | ok f' => cases hinvoke; exact send_ok h hs
    | error e =>
      cases e with
      | launch e => cases hinvoke
      | session e =>
        cases hs' : r₁.send command with
        | mk result r₂ =>
          simp only [hs'] at hinvoke
          cases result with
          | ok f' => cases hinvoke; exact send_ok hfirst hs'
          | error e =>
            cases e with
            | launch e => cases hinvoke
            | session e => cases hinvoke; exact failed_ok _ _

theorem start_moves (r : Runner) : Moves r r.start.2 := by
  unfold start
  split
  · exact .refl r
  · rename_i hlive
    split
    · exact .refl r
    · rename_i hidle
      have hspawn : Moves r r.spawn.2 := by
        refine spawn_moves ?_ (by simpa using hlive)
        rw [isRunning, Bool.not_eq_true, Option.isSome_eq_false_iff, Option.isNone_iff_eq_none] at hidle
        exact hidle
      cases hr : r.spawn with
      | mk result r' =>
        rw [hr] at hspawn
        cases result <;> exact hspawn

theorem cancel_moves (r : Runner) (f : Nat) : Moves r (r.cancel f).2 :=
  settle_moves
    { current := rfl, disposed := rfl, generation := rfl, length := rfl
      queues := fun _ _ q hq => ⟨q, hq, [], rfl, fun _ ha => absurd ha List.not_mem_nil⟩ }
    (Futures.cancel_closes r.futures f) (quiet_of_eq rfl)

/-! ## Disposing -/

/-- The newest process, which is the only one in use, owes nothing any more. -/
theorem abandon_moves (r : Runner) :
    Moves r ({ r with
      isDisposed := true, current := none, generation := r.generation + 1 }).abandon := by
  intro h
  unfold abandon
  dsimp only
  cases hlast : r.processes.getLast? with
  | none =>
    have hempty : r.queues = [] := by rw [queues, List.getLast?_eq_none_iff.1 hlast]; rfl
    refine idle_moves rfl (fun _ => rfl) (.refl _) (fun f hf => ?_) (fun i g q hq => ?_) (quiet_of_eq rfl)
    · obtain ⟨i, g, q, -, hq, -⟩ := h.queued f hf
      rw [hempty] at hq
      cases hq
    · have hq : r.queues[i]? = some (g, q) := hq
      rw [hempty] at hq
      cases hq
  | some p =>
    rw [List.getLast?_eq_getElem?] at hlast
    refine clear_moves h hlast (fun j hj => ?_) rfl (fun _ => rfl) ?_ (fun _ => rfl) rfl (quiet_of_eq rfl)
    · obtain ⟨-, -, -, hnewest⟩ := h.process hj
      omega
    · exact closes_of_serves (Transport.failAll_serves p.transport r.futures _) rfl

theorem dispose_moves (r : Runner) : Moves r r.dispose := by
  have hkilled : ∀ i, Moves r (((({ r with
      isDisposed := true, current := none, generation := r.generation + 1 }).abandon).kill i).modify i
        Process.closeInput) :=
    fun i => (abandon_moves r).trans ((kill_moves _ i).trans (modify_moves _ i fun _ => ⟨rfl, rfl⟩))
  unfold dispose
  dsimp only
  cases r.current with
  | none =>
    split
    · exact (abandon_moves r).trans (log_moves _ _ _)
    · exact abandon_moves r
  | some i =>
    split
    · exact (hkilled i).trans (log_moves _ _ _)
    · exact hkilled i

theorem abandon_current (r : Runner) : r.abandon.current = r.current ∧ r.abandon.isDisposed = r.isDisposed := by
  unfold abandon
  split <;> exact ⟨rfl, rfl⟩

theorem kill_isDisposed (r : Runner) (i : Nat) : (r.kill i).isDisposed = r.isDisposed := by
  unfold kill
  split <;> rfl

theorem dispose_current (r : Runner) : r.dispose.current = none ∧ r.dispose.isDisposed = true := by
  obtain ⟨hcurrent, hdisposed⟩ := abandon_current
    { r with isDisposed := true, current := none, generation := r.generation + 1 }
  unfold dispose
  dsimp only
  cases r.current with
  | none => split <;> exact ⟨hcurrent, hdisposed⟩
  | some i =>
    have hkilled := (kill_current _ i).trans hcurrent
    have hkilled' := (kill_isDisposed _ i).trans hdisposed
    split <;> exact ⟨hkilled, hkilled'⟩

/-! ## What is left open -/

/-- Where a change passes through a state with no process in use, everything asked for before it is
closed. -/
theorem closed_through {r r₁ r₂ : Runner} (h : Sane r) (m : Moves r r₁) (hnone : r₁.current = none)
    (m' : Moves r₁ r₂) {f : Nat} (hf : f < r.futures.outcomes.length) :
    r₂.futures.outcomes[f]? ≠ some .pending := by
  obtain ⟨h₁, e⟩ := m h
  exact (m' h₁).2.closed (lt_of_lt_of_le hf e.grows) (h₁.closed_of_idle hnone f)

/-- The process in use is given up when its output ends. -/
theorem outputClosed_current {r : Runner} {i : Nat} (h : Sane r) (hi : r.current = some i)
    (fault : Option String) : (r.outputClosed i fault).current = none := by
  obtain ⟨p, hp, hgen, -⟩ := h.process hi
  have hp' : (r.modify i fun p => { p with isRead := false }).processes[i]? = some { p with isRead := false } := by
    rw [modify_getElem?, if_pos rfl, hp]
    rfl
  unfold outputClosed
  simp only [hp', Option.map_some, hgen]
  rw [if_pos]
  · exact giveUp_current _ _ _ _ _
  · rw [Bool.and_eq_true, decide_eq_true_eq, decide_eq_true_eq]
    exact ⟨rfl, hi⟩

theorem endOutput_current {r : Runner} {i : Nat} (h : Sane r) (hi : r.current = some i) :
    (r.endOutput i).current = none := by
  obtain ⟨p, hp, -, -⟩ := h.process hi
  unfold endOutput
  simp only [hp]
  exact outputClosed_current
    ((absorb_moves hp _ (Transport.endOutput_serves p.transport r.futures)) h).1 hi none

theorem noteExit_current (r : Runner) (i : Nat) (code : Option Int) :
    (r.noteExit i code).current = r.current := by
  cases code <;> rfl

/-- The poll inside `invoke` gives up a process that has ended. -/
theorem invoke_closed_of_exited {r : Runner} {i : Nat} {p : Process} {code : Int} (h : Sane r)
    (hi : r.current = some i) (hp : r.processes[i]? = some p) (hcode : p.exitCode = some code)
    (command : String) {f : Nat} (hf : f < r.futures.outcomes.length) :
    (r.invoke command).2.futures.outcomes[f]? ≠ some .pending := by
  obtain ⟨hlive, -, -⟩ := h.inUse i hi
  have hstarted : r.ensureStarted =
      (({ r with current := none }).giveUp .caller i (some code) none).spawn := by
    unfold ensureStarted
    simp only [hi, hp, Option.bind_some, hcode]
  -- the poll gives the process up before the next one is started
  have hnone := giveUp_current { r with current := none } .caller i (some code) none
  have hspawn := spawn_moves hnone ((giveUp_isDisposed _ _ _ _ _).trans hlive)
  have hsend := send_continues hlive command
  rw [hstarted] at hsend
  exact closed_through h (giveUp_moves hi _ _ _) hnone
    (hspawn.trans (hsend.trans (invoke_continues r command))) hf

/-- A line that is not taken costs the process, on the first attempt or later. -/
theorem invoke_closed_of_refused {r : Runner} {i : Nat} {p : Process} (h : Sane r) (hi : r.current = some i)
    (hp : r.processes[i]? = some p) (hrefused : Transport.writeFault? p.transport.profile p.input ≠ none)
    (command : String) {f : Nat} (hf : f < r.futures.outcomes.length) :
    (r.invoke command).2.futures.outcomes[f]? ≠ some .pending := by
  obtain ⟨hlive, -, -⟩ := h.inUse i hi
  cases hcode : p.exitCode with
  | some code => exact invoke_closed_of_exited h hi hp hcode command hf
  | none =>
    -- the first attempt writes to the process in use, and ends with no process in use
    have hstarted : r.ensureStarted = (.ok i, r) := by
      unfold ensureStarted
      simp only [hi, hp, Option.bind_some, hcode]
    have hsend : (r.send command).2 = (r.write i command).2 := by
      unfold send
      rw [if_neg (by simp [hlive])]
      simp only [hstarted]
    have hnone : (r.send command).2.current = none := by rw [hsend]; exact (write_error hi hp hrefused).2
    exact closed_through h (send_moves r command) hnone (invoke_continues r command) hf

end ScriptTree.Interpreter.Runner
