/-
Whom an answer hangs on. For each answer that `invoke` names, the process written to last is kept beside
the runner (`Delivery`). Every queue holds only answers of its own process (`Tracked`), so an answer is
settled by what becomes of the process that its command was written to (`Concerns`), and what the
processes before and after it do is no matter (`Separate`).
-/
import ScriptTree.Proofs.Interpreter.Generation

namespace ScriptTree.Interpreter

/-- The process that an effect writes to. -/
def Effect.writtenTo? : Effect → Option Nat
  | .write pid _ => some pid
  | _ => none

theorem Transport.Serves.subset {t t' : Transport} {fs fs' : Futures} (h : Serves t fs t' fs') :
    t'.pending ⊆ t.pending := by
  obtain ⟨names, hpending, -⟩ := h
  rw [hpending]
  exact List.subset_append_right _ _

namespace Runner

/-- The processes that were written to, in the order of the writes. -/
def written (r : Runner) : List Nat :=
  r.effects.filterMap Effect.writtenTo?

/-- The answer waits in the queue of the process. -/
def Owes (r : Runner) (pid f : Nat) : Prop :=
  ∃ p ∈ r.processes, p.pid = pid ∧ f ∈ p.transport.pending

/-- A process id names one process, and the next one is new. -/
structure Numbered (r : Runner) : Prop where
  nodup : r.pids.Nodup
  used : ∀ pid ∈ r.pids, pid < firstPid + r.generation

/-! ## The frame -/

/-- The processes keep their places, some of them were written to, and no queue has got an answer but
the one posted, which the process written to last owes. -/
structure Posts (posted : Option Nat) (pids : List Nat) (r r' : Runner) : Prop where
  numbered : Numbered r → Numbered r'
  places : r.pids <+: r'.pids
  written : r'.written = r.written ++ pids
  owes : ∀ pid f, r'.Owes pid f → r.Owes pid f ∨ posted = some f ∧ pids.getLast? = some pid

/-- Nothing is written, and the queues only get shorter. -/
abbrev Drains : Runner → Runner → Prop :=
  Posts none []

theorem Drains.refl (r : Runner) : Drains r r where
  numbered := id
  places := List.prefix_rfl
  written := (List.append_nil _).symm
  owes _ _ h := .inl h

section

variable {posted : Option Nat} {pids pids' : List Nat} {r r' r'' : Runner}

/-- What is posted is posted at the end. -/
theorem Posts.trans (h : Posts none pids r r') (h' : Posts posted pids' r' r'') :
    Posts posted (pids ++ pids') r r'' where
  numbered := h'.numbered ∘ h.numbered
  places := h.places.trans h'.places
  written := by rw [h'.written, h.written, List.append_assoc]
  owes pid f hf := by
    rcases h'.owes pid f hf with hf | ⟨hposted, hlast⟩
    · rcases h.owes pid f hf with hf | ⟨hnone, -⟩
      · exact .inl hf
      · cases hnone
    · exact .inr ⟨hposted, by rw [List.getLast?_append, hlast]; rfl⟩

theorem Posts.drains (h : Posts posted pids r r') (h' : Drains r' r'') : Posts posted pids r r'' where
  numbered := h'.numbered ∘ h.numbered
  places := h.places.trans h'.places
  written := by rw [h'.written, h.written, List.append_nil]
  owes pid f hf := by
    rcases h'.owes pid f hf with hf | ⟨hnone, -⟩
    · exact h.owes pid f hf
    · cases hnone

theorem Posts.mono (h : Posts none pids r r') (posted : Option Nat) : Posts posted pids r r' where
  numbered := h.numbered
  places := h.places
  written := h.written
  owes pid f hf := by
    rcases h.owes pid f hf with hf | ⟨hnone, -⟩
    · exact .inl hf
    · cases hnone

theorem Posts.place (h : Posts posted pids r r') {i pid : Nat} (hi : r.pids[i]? = some pid) :
    r'.pids[i]? = some pid := by
  obtain ⟨rest, hrest⟩ := h.places
  rw [← hrest, List.getElem?_append_left (List.getElem?_eq_some_iff.1 hi).1, hi]

/-- What was written since. -/
theorem Posts.drop_written (h : Posts posted pids r r') : r'.written.drop r.written.length = pids := by
  rw [h.written, List.drop_left]

end

/-! ## The changes a runner is made of -/

section

variable {r : Runner} {i : Nat}

/-- The processes stay as they are. -/
theorem same_posts {r' : Runner} {pids : List Nat} (hprocesses : r'.processes = r.processes)
    (hgeneration : r.generation ≤ r'.generation) (hwritten : r'.written = r.written ++ pids) :
    Posts none pids r r' := by
  have hpids : r'.pids = r.pids := congrArg (List.map Process.pid) hprocesses
  refine
    { numbered := fun h => ⟨hpids ▸ h.nodup, fun pid hpid => ?_⟩, places := hpids ▸ List.prefix_rfl
      written := hwritten, owes := fun pid f hf => .inl ?_ }
  · exact (h.used pid (hpids ▸ hpid)).trans_le (Nat.add_le_add_left hgeneration _)
  · obtain ⟨p, hp, hpid, hf⟩ := hf
    exact ⟨p, hprocesses ▸ hp, hpid, hf⟩

theorem same_drains {r' : Runner} (hprocesses : r'.processes = r.processes)
    (hgeneration : r.generation ≤ r'.generation) (heffects : r'.effects = r.effects) : Drains r r' :=
  same_posts hprocesses hgeneration (by rw [written, heffects, List.append_nil]; rfl)

theorem act_posts (r : Runner) {effects : List Effect} {pids : List Nat}
    (h : effects.filterMap Effect.writtenTo? = pids) : Posts none pids r (r.act effects) :=
  same_posts rfl (le_refl _) (by rw [← h]; exact List.filterMap_append)

theorem logs_drains (r : Runner) (actor : Actor) (events : List Log.Event) :
    Drains r (r.act (events.map (.log actor))) := by
  refine act_posts r (List.filterMap_eq_nil_iff.2 fun a ha => ?_)
  obtain ⟨event, -, rfl⟩ := List.mem_map.1 ha
  rfl

theorem mem_modify {f : Process → Process} {p : Process} (hp : p ∈ (r.modify i f).processes) :
    p ∈ r.processes ∨ ∃ p₀, r.processes[i]? = some p₀ ∧ f p₀ = p := by
  obtain ⟨j, hj⟩ := List.getElem?_of_mem hp
  rw [modify_getElem?] at hj
  by_cases hij : i = j
  · subst hij
    rw [if_pos rfl] at hj
    exact .inr (Option.map_eq_some_iff.1 hj)
  · rw [if_neg hij] at hj
    exact .inl (List.mem_of_getElem? hj)

/-- A process changes, and its queue gets no answer but the one posted. -/
theorem modify_posts {posted : Option Nat} {pids : List Nat} (r : Runner) (i : Nat) {f : Process → Process}
    (hpid : ∀ p, r.processes[i]? = some p → (f p).pid = p.pid)
    (hpending : ∀ p, r.processes[i]? = some p → ∀ a ∈ (f p).transport.pending,
      a ∈ p.transport.pending ∨ posted = some a ∧ pids.getLast? = some p.pid) {r' : Runner}
    (hprocesses : r'.processes = (r.modify i f).processes) (hgeneration : r.generation ≤ r'.generation)
    (hwritten : r'.written = r.written ++ pids) : Posts posted pids r r' := by
  have hsame : r'.pids = r.pids :=
    (congrArg (List.map Process.pid) hprocesses).trans (modify_pids r i hpid)
  refine
    { numbered := fun h => ⟨hsame ▸ h.nodup, fun pid hin => ?_⟩, places := hsame ▸ List.prefix_rfl
      written := hwritten, owes := fun pid a ha => ?_ }
  · exact (h.used pid (hsame ▸ hin)).trans_le (Nat.add_le_add_left hgeneration _)
  · obtain ⟨p, hp, rfl, ha⟩ := ha
    rcases mem_modify (hprocesses ▸ hp) with hp | ⟨p₀, hp₀, rfl⟩
    · exact .inl ⟨p, hp, rfl, ha⟩
    · rw [hpid p₀ hp₀]
      rcases hpending p₀ hp₀ a ha with ha | hposted
      · exact .inl ⟨p₀, List.mem_of_getElem? hp₀, rfl, ha⟩
      · exact .inr hposted

theorem modify_drains (r : Runner) (i : Nat) {f : Process → Process}
    (hpid : ∀ p, r.processes[i]? = some p → (f p).pid = p.pid)
    (hpending : ∀ p, r.processes[i]? = some p → (f p).transport.pending ⊆ p.transport.pending) :
    Drains r (r.modify i f) :=
  modify_posts r i hpid (fun p hp _ ha => .inl (hpending p hp ha)) rfl (le_refl _) (List.append_nil _).symm

theorem futures_drains (r : Runner) (futures : Futures) : Drains r { r with futures } :=
  same_drains rfl (le_refl _) rfl

theorem absorb_drains (actor : Actor) {p : Process} (hp : r.processes[i]? = some p) {t : Transport}
    {c : Change} (h : Transport.Serves p.transport r.futures t c.futures) :
    Drains r (r.absorb i actor t c) := by
  have hmodify : Drains r (r.modify i fun p => { p with transport := t }) := by
    refine modify_drains r i (fun _ _ => rfl) fun p' hp' => ?_
    rw [hp] at hp'
    cases hp'
    exact h.subset
  exact (hmodify.drains (futures_drains _ c.futures)).drains (logs_drains _ actor c.events)

/-! ## What the readers bring about -/

theorem readErrors_drains (r : Runner) (i : Nat) (bytes : List UInt8) : Drains r (r.readErrors i bytes) :=
  modify_drains r i (fun _ _ => rfl) fun _ _ => List.Subset.refl _

theorem noteExit_drains (r : Runner) (i : Nat) (code : Option Int) : Drains r (r.noteExit i code) := by
  cases code with
  | none => exact .refl r
  | some code => exact modify_drains r i (fun _ _ => rfl) fun _ _ => List.Subset.refl _

theorem readOutput_drains (r : Runner) (i : Nat) (bytes : List UInt8) : Drains r (r.readOutput i bytes) := by
  unfold readOutput
  split
  · exact .refl r
  · rename_i p hp
    exact absorb_drains _ hp (Transport.receiveOutput_serves p.transport r.futures bytes)

theorem giveUp_drains (r : Runner) (actor : Actor) (i : Nat) (exitCode : Option Int)
    (fault : Option String) : Drains r (r.giveUp actor i exitCode fault) := by
  unfold giveUp
  split
  · exact .refl r
  · rename_i p hp
    have hclosed : ∀ (first rest : SessionError), Drains r (r.modify i fun p' =>
        ({ p' with transport := (p.transport.clearBuffers.failOldest r.futures first rest).1 }).closeInput) := by
      refine fun first rest => modify_drains r i (fun _ _ => rfl) fun p' hp' => ?_
      rw [hp] at hp'
      cases hp'
      exact (Transport.failOldest_serves p.transport.clearBuffers r.futures first rest).subset
    exact ((hclosed _ _).drains (futures_drains _ _)).drains (logs_drains _ actor [_])

theorem outputClosed_drains (r : Runner) (i : Nat) (fault : Option String) :
    Drains r (r.outputClosed i fault) := by
  have hunread : Drains r (r.modify i fun p => { p with isRead := false }) :=
    modify_drains r i (fun _ _ => rfl) fun _ _ => List.Subset.refl _
  unfold outputClosed
  dsimp only
  split
  · refine (hunread.drains ?_).drains (giveUp_drains _ _ _ _ _)
    exact same_drains rfl (le_refl _) rfl
  · exact hunread

theorem endOutput_drains (r : Runner) (i : Nat) : Drains r (r.endOutput i) := by
  unfold endOutput
  split
  · exact .refl r
  · rename_i p hp
    exact (absorb_drains _ hp (Transport.endOutput_serves p.transport r.futures)).drains
      (outputClosed_drains _ i none)

theorem emit_drains (r : Runner) (i : Nat) (e : Emission) : Drains r (r.emit i e) := by
  have hread : Drains r ((r.readErrors i e.stderr).readOutput i e.stdout) :=
    (readErrors_drains r i _).drains (readOutput_drains _ i _)
  unfold emit
  split
  · exact .refl r
  · split
    · dsimp only
      split
      · exact (hread.drains (noteExit_drains _ i _)).drains (endOutput_drains _ i)
      · exact hread
    · exact noteExit_drains r i _

/-! ## What the caller brings about -/

theorem kill_drains (r : Runner) (i : Nat) : Drains r (r.kill i) := by
  unfold kill
  split
  · exact .refl r
  · have hmodify : Drains r (r.modify i Process.kill) :=
      modify_drains r i (fun _ _ => rfl) fun _ _ => List.Subset.refl _
    exact hmodify.drains (act_posts _ rfl)

theorem discard_drains (r : Runner) (i : Nat) : Drains r (r.discard i) := by
  have hidle : Drains r { r with current := none } := same_drains rfl (le_refl _) rfl
  unfold discard
  split
  · exact (hidle.drains (kill_drains _ i)).drains (giveUp_drains _ _ _ _ _)
  · exact .refl r

theorem reply_drains (r : Runner) (i : Nat) : Drains r (r.reply i) := by
  have hhost : ∀ host, Drains r { r with host } := fun _ => same_drains rfl (le_refl _) rfl
  unfold reply
  split
  · exact .refl r
  · exact (hhost _).drains (emit_drains _ i _)

theorem failed_drains (r : Runner) (e : SessionError) : Drains r (r.failed e).2 :=
  futures_drains r _

theorem refuse_drains (r : Runner) (e : SessionError) : Drains r (r.refuse e).2 :=
  Posts.drains (logs_drains r .caller [_]) (failed_drains _ e)

/-- A process is started under the next id, and its queue is empty. -/
theorem started_drains {r' : Runner} {p : Process} (hprocesses : r'.processes = r.processes ++ [p])
    (hpid : p.pid = firstPid + r.generation) (hempty : p.transport.pending = [])
    (hgeneration : r'.generation = r.generation + 1) (hwritten : r'.written = r.written) : Drains r r' := by
  have hpids : r'.pids = r.pids ++ [firstPid + r.generation] := by
    rw [pids, hprocesses, List.map_append, List.map_singleton, hpid]
    rfl
  refine
    { numbered := fun h => ⟨?_, fun pid hin => ?_⟩, places := hpids ▸ List.prefix_append _ _
      written := by rw [hwritten, List.append_nil], owes := fun pid f hf => .inl ?_ }
  · rw [hpids, ← List.concat_eq_append]
    exact h.nodup.concat fun hin => Nat.lt_irrefl _ (h.used _ hin)
  · rw [hpids] at hin
    rw [hgeneration]
    rcases List.mem_append.1 hin with hin | hin
    · have := h.used pid hin
      omega
    · rw [List.mem_singleton.1 hin]
      omega
  · obtain ⟨q, hq, hid, hf⟩ := hf
    rw [hprocesses] at hq
    rcases List.mem_append.1 hq with hq | hq
    · exact ⟨q, hq, hid, hf⟩
    · rw [List.mem_singleton.1 hq, hempty] at hf
      cases hf

theorem spawn_drains (r : Runner) : Drains r r.spawn.2 := by
  have hwritten : ∀ (r' : Runner) (effects : List Effect), r'.effects = r.effects ++ effects →
      effects.filterMap Effect.writtenTo? = [] → r'.written = r.written ++ [] := by
    intro r' effects heffects hnone
    rw [written, heffects, List.filterMap_append, hnone]
    rfl
  unfold spawn
  split
  · exact .refl r
  · dsimp only
    split
    · exact same_posts rfl (le_refl _) (hwritten _ _ rfl rfl)
    · split
      · exact same_posts rfl (Nat.le_succ _) (hwritten _ _ rfl rfl)
      · rename_i transport hnew
        exact started_drains rfl rfl (Transport.new?_pending hnew) rfl
          ((hwritten _ _ (List.append_assoc _ _ _) rfl).trans (List.append_nil _))

theorem start_drains (r : Runner) : Drains r r.start.2 := by
  have hspawn := spawn_drains r
  unfold start
  split
  · exact .refl r
  · split
    · exact .refl r
    · cases hr : r.spawn with
      | mk result r' =>
        rw [hr] at hspawn
        cases result <;> exact hspawn

theorem ensureStarted_drains (r : Runner) : Drains r r.ensureStarted.2 := by
  have hidle : Drains r { r with current := none } := same_drains rfl (le_refl _) rfl
  unfold ensureStarted
  split
  · exact spawn_drains r
  · split
    · exact .refl r
    · exact (hidle.drains (giveUp_drains _ _ _ _ _)).drains (spawn_drains _)

theorem abandon_drains (r : Runner) : Drains r r.abandon := by
  unfold abandon
  split
  · exact .refl r
  · rename_i p _
    have hcleared : Drains r (r.modify (r.processes.length - 1) fun p' =>
        { p' with transport := (p.transport.failAll r.futures r.disposedError).1.clearBuffers }) :=
      modify_drains r _ (fun _ _ => rfl) fun _ _ => List.nil_subset _
    exact hcleared.drains (futures_drains _ _)

theorem dispose_drains (r : Runner) : Drains r r.dispose := by
  have hidle : Drains r { r with isDisposed := true, current := none, generation := r.generation + 1 } :=
    same_drains rfl (Nat.le_succ _) rfl
  have hstopped := hidle.drains (abandon_drains _)
  have hkilled : ∀ r' i, Drains r' ((r'.kill i).modify i Process.closeInput) := fun r' i =>
    (kill_drains r' i).drains (modify_drains _ i (fun _ _ => rfl) fun _ _ => List.Subset.refl _)
  have hlogged : ∀ r' event, Drains r' (r'.act [.log .caller event]) :=
    fun r' event => logs_drains r' .caller [event]
  unfold dispose
  dsimp only
  cases r.current with
  | none =>
    split
    · exact hstopped.drains (hlogged _ _)
    · exact hstopped
  | some i =>
    split
    · exact (hstopped.drains (hkilled _ i)).drains (hlogged _ _)
    · exact hstopped.drains (hkilled _ i)

end

/-! ## Sending -/

section

variable {r r' : Runner} {i f : Nat} {command : String} {p : Process}

/-- A line that is taken is written to the process, and the process owes the answer. -/
theorem write_taken_posts (hp : r.processes[i]? = some p) (hw : r.write i command = (.ok f, r')) :
    Posts (some f) [p.pid] r r' ∧ f = r.futures.outcomes.length ∧
      (r.host.replies = [] → r'.futures.outcomes = r.futures.outcomes ++ [.pending]) := by
  unfold write at hw
  simp only [hp] at hw
  cases hsend : p.transport.send r.futures p.input with
  | error e =>
    rw [hsend] at hw
    cases congrArg Prod.fst hw
  | ok taken =>
    obtain ⟨t, fs, f'⟩ := taken
    obtain ⟨rfl, hf, houtcomes⟩ := Transport.send_ok hsend
    rw [hsend] at hw
    cases hw
    have haccepts : p.input = .accepts := by
      unfold Transport.send at hsend
      cases hinput : p.input <;> simp [hinput, Transport.writeFault?] at hsend ⊢
    have hlines : ((Transport.linesOut r.profile p.input command).map (Effect.write p.pid)).filterMap
        Effect.writtenTo? = [p.pid] := by
      rw [haccepts]
      rfl
    refine ⟨Posts.drains ?_ (reply_drains _ i), hf, fun hreplies => ?_⟩
    · refine modify_posts r i (f := fun p' => { p' with transport := p.transport.enqueue f })
        (fun _ _ => rfl) (fun p' hp' a ha => ?_) rfl (le_refl _) ?_
      · rw [hp] at hp'
        cases hp'
        rcases List.mem_append.1 ha with ha | ha
        · exact .inl ha
        · exact .inr ⟨congrArg some (List.mem_singleton.1 ha).symm, rfl⟩
      · exact List.filterMap_append.trans (congrArg (r.written ++ ·) hlines)
    · unfold reply
      simp only [act, modify, hreplies]
      exact houtcomes

theorem giveUp_host (r : Runner) (actor : Actor) (i : Nat) (exitCode : Option Int) (fault : Option String) :
    (r.giveUp actor i exitCode fault).host = r.host := by
  unfold giveUp
  split <;> rfl

theorem kill_host (r : Runner) (i : Nat) : (r.kill i).host = r.host := by
  unfold kill
  split <;> rfl

theorem discard_host (r : Runner) (i : Nat) : (r.discard i).host = r.host := by
  unfold discard
  split
  · exact (giveUp_host _ _ _ _ _).trans (kill_host _ i)
  · rfl

/-- At most the process was written to, and it is lost. -/
theorem write_refused_posts {e : SessionError} (hi : r.current = some i) (hp : r.processes[i]? = some p)
    (hw : r.write i command = (.error e, r')) :
    Transport.writeFault? p.transport.profile p.input ≠ none ∧ r'.current = none ∧
      r'.host.replies = r.host.replies ∧ ∃ pids, Posts none pids r r' ∧ ∀ pid ∈ pids, pid = p.pid := by
  unfold write at hw
  simp only [hp] at hw
  cases hsend : p.transport.send r.futures p.input with
  | ok taken =>
    obtain ⟨t, fs, f'⟩ := taken
    rw [hsend] at hw
    cases congrArg Prod.fst hw
  | error e' =>
    rw [hsend] at hw
    cases hw
    refine ⟨fun htaken => ?_, discard_current hi, congrArg Host.replies (discard_host _ i), ?_⟩
    · unfold Transport.send at hsend
      rw [htaken] at hsend
      cases hsend
    · refine ⟨_, (act_posts r rfl).drains (discard_drains _ i), fun pid hpid => ?_⟩
      obtain ⟨a, ha, hto⟩ := List.mem_filterMap.1 hpid
      obtain ⟨line, -, rfl⟩ := List.mem_map.1 ha
      exact (Option.some.inj hto).symm

/-- A process that is started takes the next place. -/
theorem spawn_place (h : r.spawn = (.ok i, r')) :
    i = r.processes.length ∧ r'.host.replies = r.host.replies := by
  unfold spawn at h
  split at h
  · cases h
  · dsimp only at h
    split at h
    · cases h
    · split at h
      · cases h
      · cases h
        refine ⟨rfl, ?_⟩
        show r.host.afterStart.replies = _
        unfold Host.afterStart
        split <;> rfl

theorem spawn_failed {e : RunnerError} (h : r.spawn = (.error e, r')) : r'.current = r.current := by
  unfold spawn at h
  split at h
  · cases h
    rfl
  · dsimp only at h
    split at h
    · cases h
      rfl
    · split at h
      · cases h
        rfl
      · cases h

/-- The process to write to is the one in use as it was, or a new one. -/
theorem ensureStarted_place (h : r.ensureStarted = (.ok i, r')) :
    (r' = r ∨ r.processes.length ≤ i) ∧ r'.host.replies = r.host.replies := by
  unfold ensureStarted at h
  split at h
  · obtain ⟨hplace, hreplies⟩ := spawn_place h
    exact ⟨.inr hplace.ge, hreplies⟩
  · rename_i j _
    split at h
    · cases h
      exact ⟨.inl rfl, rfl⟩
    · rename_i code _
      obtain ⟨hplace, hreplies⟩ := spawn_place h
      rw [giveUp_host] at hreplies
      have hlonger := (giveUp_drains { r with current := none } .caller j (some code) none).places.length_le
      rw [pids, pids, List.length_map, List.length_map, ← hplace] at hlonger
      exact ⟨.inr hlonger, hreplies⟩

theorem ensureStarted_failed {e : RunnerError} (h : r.ensureStarted = (.error e, r'))
    (hnone : r.current = none) : r'.current = none := by
  unfold ensureStarted at h
  rw [hnone] at h
  exact (spawn_failed h).trans hnone

/-- A process did not take the line and is lost: the one in use before, or one started meanwhile. -/
inductive Refusal (r r' : Runner) (pid : Nat) : Prop
  | inUse {i : Nat} {p : Process} : r.current = some i → r.processes[i]? = some p → p.pid = pid →
      Transport.writeFault? p.transport.profile p.input ≠ none → Refusal r r' pid
  | started {i : Nat} : r.pids.length ≤ i → r'.pids[i]? = some pid → r'.current = none → Refusal r r' pid

/-- What sending a command comes to. -/
inductive Sent (r : Runner) : Except RunnerError Nat → Runner → Prop
  /-- Nothing was written, and the answer has failed. -/
  | declined {f : Nat} {e : SessionError} {r' : Runner} : Drains r r' → r.futures.outcomes.length ≤ f →
      r'.futures.outcomes[f]? = some (.failed e) → (r.current = none → r'.current = none) → Sent r (.ok f) r'
  /-- The answer is open unless the process replies at once. -/
  | taken {f pid : Nat} {r' : Runner} : Posts (some f) [pid] r r' → r.futures.outcomes.length ≤ f →
      (r.host.replies = [] → r'.futures.outcomes[f]? = some .pending) → Sent r (.ok f) r'
  | refused {e : SessionError} {pid : Nat} {pids : List Nat} {r' : Runner} : Posts none pids r r' →
      (∀ pid' ∈ pids, pid' = pid) → Refusal r r' pid → r'.current = none →
      r'.host.replies = r.host.replies → Sent r (.error (.session e)) r'
  | aborted {e : LaunchFault} {r' : Runner} : Drains r r' → Sent r (.error (.launch e)) r'

theorem failed_outcome (r : Runner) (e : SessionError) :
    (r.failed e).2.futures.outcomes[(r.failed e).1]? = some (.failed e) := by
  show (r.futures.outcomes ++ [_])[r.futures.outcomes.length]? = _
  rw [List.getElem?_append_right (le_refl _), Nat.sub_self]
  rfl

theorem send_sent (h : Sane r) (command : String) : Sent r (r.send command).1 (r.send command).2 := by
  unfold send
  cases hdisposed : r.isDisposed with
  | true =>
    rw [if_pos rfl]
    exact .declined (failed_drains r _) (le_refl _) (failed_outcome r _) id
  | false =>
    rw [if_neg Bool.false_ne_true]
    obtain ⟨hsane, hextends⟩ := ensureStarted_moves hdisposed h
    have hdrains := ensureStarted_drains r
    cases hstarted : r.ensureStarted with
    | mk result r₁ =>
      rw [hstarted] at hsane hextends hdrains
      have hgrows : r.futures.outcomes.length ≤ r₁.futures.outcomes.length := hextends.grows
      cases result with
      | error e =>
        cases e with
        | session e =>
          have hstill : r.current = none → r₁.current = none := ensureStarted_failed hstarted
          exact .declined (hdrains.drains (refuse_drains r₁ e)) hgrows (failed_outcome _ e) hstill
        | launch e => exact .aborted hdrains
      | ok i =>
        obtain ⟨hi, -⟩ := ensureStarted_ok hstarted
        obtain ⟨hplace, hreplies⟩ := ensureStarted_place hstarted
        obtain ⟨p, hp, -, -⟩ := hsane.process hi
        dsimp only
        cases hw : r₁.write i command with
        | mk sent r₂ =>
          cases sent with
          | ok f =>
            obtain ⟨hposts, rfl, hopen⟩ := write_taken_posts hp hw
            refine .taken (hdrains.trans hposts) hgrows fun hsilent => ?_
            rw [hopen (hreplies.trans hsilent), List.getElem?_append_right (le_refl _), Nat.sub_self]
            rfl
          | error e =>
            obtain ⟨hfault, hnone, hsame, pids, hposts, hpids⟩ := write_refused_posts hi hp hw
            refine .refused (hdrains.trans hposts) hpids ?_ hnone (hsame.trans hreplies)
            rcases hplace with rfl | hnew
            · exact .inUse hi hp rfl hfault
            · refine .started (List.length_map _ ▸ hnew) ?_ hnone
              exact hposts.place (pids_getElem? hp)

theorem Refusal.later {r r₁ r₂ : Runner} {pids : List Nat} {posted : Option Nat} {pid : Nat}
    (h : Refusal r r₁ pid) (hposts : Posts posted pids r₁ r₂) (hnone : r₂.current = none) :
    Refusal r r₂ pid := by
  cases h with
  | inUse hi hp hpid hfault => exact .inUse hi hp hpid hfault
  | started hnew hplace _ => exact .started hnew (hposts.place hplace) hnone

/-- What asking for an answer comes to: the processes written to, and how the answer named is settled if
it is. -/
structure Asked (r : Runner) (named : Option Nat) (pids : List Nat) (r' : Runner) : Prop where
  posts : Posts named pids r r'
  later : ∀ f, named = some f → r.futures.outcomes.length ≤ f
  settled : ∀ f o, named = some f → r'.futures.outcomes[f]? = some o → o ≠ .pending →
    (pids = [] ∧ ∃ e, o = .failed e) ∨
      ∃ pid, pids.getLast? = some pid ∧ (r.host.replies ≠ [] ∨ Refusal r r' pid)

/-- Every attempt was refused: the answer fails, and the last process that was written to is lost. -/
theorem Asked.of_failed {f : Nat} {e : SessionError} {pids : List Nat} (hposts : Posts none pids r r')
    (hlater : r.futures.outcomes.length ≤ f) (hfailed : r'.futures.outcomes[f]? = some (.failed e))
    (hrefusal : ∀ pid ∈ pids, Refusal r r' pid) : Asked r (some f) pids r' where
  posts := hposts.mono _
  later f' hf := Option.some.inj hf ▸ hlater
  settled f' o hf ho _ := by
    cases hf
    rw [hfailed] at ho
    cases ho
    cases hlast : pids.getLast? with
    | none => exact .inl ⟨List.getLast?_eq_none_iff.1 hlast, e, rfl⟩
    | some pid => exact .inr ⟨pid, rfl, .inr (hrefusal pid (List.mem_of_getLast? hlast))⟩

theorem Asked.of_taken {f pid : Nat} {pids : List Nat} (hposts : Posts (some f) (pids ++ [pid]) r r')
    (hlater : r.futures.outcomes.length ≤ f)
    (hopen : r.host.replies = [] → r'.futures.outcomes[f]? = some .pending) :
    Asked r (some f) (pids ++ [pid]) r' where
  posts := hposts
  later f' hf := Option.some.inj hf ▸ hlater
  settled f' o hf ho hne := by
    cases hf
    refine .inr ⟨pid, List.getLast?_concat, .inl fun hsilent => hne ?_⟩
    exact Option.some.inj (ho.symm.trans (hopen hsilent))

theorem Asked.of_aborted {pids : List Nat} (hposts : Posts none pids r r') : Asked r none pids r' where
  posts := hposts
  later _ hf := by cases hf
  settled _ _ hf := by cases hf

theorem invoke_asked (h : Sane r) (command : String) :
    ∃ pids, Asked r (r.invoke command).1.toOption pids (r.invoke command).2 := by
  have hsent := send_sent h command
  obtain ⟨hsane, hextends⟩ := send_moves r command h
  unfold invoke
  cases hr : r.send command with
  | mk result r₁ =>
    rw [hr] at hsent hsane hextends
    have hgrows : r.futures.outcomes.length ≤ r₁.futures.outcomes.length := hextends.grows
    cases hsent with
    | declined hposts hlater hfailed _ => exact ⟨[], .of_failed hposts hlater hfailed nofun⟩
    | @taken f pid _ hposts hlater hopen => exact ⟨[] ++ [pid], .of_taken hposts hlater hopen⟩
    | aborted hposts => exact ⟨[], .of_aborted hposts⟩
    | @refused e pid pids r₁ hposts hpids hrefusal hnone hreplies =>
      dsimp only
      have hsent' := send_sent hsane command
      cases hr' : r₁.send command with
      | mk result r₂ =>
        rw [hr'] at hsent'
        cases hsent' with
        | declined hposts' hlater hfailed hstill =>
          have hall := hposts.trans hposts'
          rw [List.append_nil] at hall
          refine ⟨pids, .of_failed hall (hgrows.trans hlater) hfailed fun pid' hpid' => ?_⟩
          rw [hpids pid' hpid']
          exact hrefusal.later hposts' (hstill hnone)
        | taken hposts' hlater hopen =>
          refine ⟨_, .of_taken (hposts.trans hposts') (hgrows.trans hlater) fun hsilent => ?_⟩
          exact hopen (hreplies.trans hsilent)
        | aborted hposts' => exact ⟨_, .of_aborted (hposts.trans hposts')⟩
        | @refused e' pid' pids' r₂ hposts' hpids' hrefusal' hnone' _ =>
          have hdrains := refuse_drains r₂ e'
          have hmore : r₁.futures.outcomes.length ≤ r₂.futures.outcomes.length := by
            have := (send_moves r₁ command hsane).2.grows
            rwa [hr'] at this
          refine ⟨_, .of_failed ((hposts.trans hposts').drains hdrains) (hgrows.trans hmore)
            (failed_outcome _ e') fun pid'' hpid'' => ?_⟩
          rcases List.mem_append.1 hpid'' with hin | hin
          · rw [hpids pid'' hin]
            exact hrefusal.later (hposts'.drains hdrains) hnone'
          · rw [hpids' pid'' hin]
            -- no process was in use any more, so the second one to refuse was started after that
            cases hrefusal' with
            | inUse hi _ _ _ =>
              rw [hnone] at hi
              cases hi
            | started hnew hplace _ =>
              exact .started (hposts.places.length_le.trans hnew) (hdrains.place hplace) hnone'

/-- A process in use that runs and takes the line is the only one written to. -/
theorem invoke_taken {r : Runner} {i : Nat} {p : Process} (h : Sane r) (hi : r.current = some i)
    (hp : r.processes[i]? = some p) (hruns : p.exitCode = none)
    (htakes : Transport.writeFault? p.transport.profile p.input = none) (command : String) :
    ∃ f r', r.write i command = (.ok f, r') ∧ r.invoke command = (.ok f, r') := by
  obtain ⟨hlive, -, -⟩ := h.inUse i hi
  have hstarted : r.ensureStarted = (.ok i, r) := by
    unfold ensureStarted
    simp only [hi, hp, Option.bind_some, hruns]
  cases hw : r.write i command with
  | mk sent r' =>
    cases sent with
    | error e => exact absurd htakes (write_refused_posts hi hp hw).1
    | ok f =>
      refine ⟨f, r', rfl, ?_⟩
      unfold invoke send
      simp only [hlive, Bool.false_eq_true, if_false, hstarted, hw]
      rfl

end
end Runner

/-! ## Deliveries -/

/-- A runner over its life, with the process that the command of each answer was written to. -/
structure Delivery where
  life : Lifetime
  addressee : Nat → Option Nat

namespace Lifetime

/-- The answer that an event names to the owner of the runner. -/
def named? (l : Lifetime) : Event → Option Nat
  | .invoke command => (l.runner.invoke command).1.toOption
  | _ => none

/-- The process that is written to last in an event. -/
def writtenTo? (l : Lifetime) (e : Event) : Option Nat :=
  ((l.step e).runner.written.drop l.runner.written.length).getLast?

/-- The event settles answers for what becomes of the process. -/
inductive Concerns (l : Lifetime) : Event → Nat → Prop
  /-- The readers of the process in use report something. -/
  | reported {e : Event} {i pid : Nat} : l.runner.current = some i → l.runner.pids[i]? = some pid →
      e.reporter? = some i → Concerns l e pid
  /-- The process in use is lost or disposed of. -/
  | lost {e : Event} {i pid : Nat} : l.runner.current = some i → l.runner.pids[i]? = some pid →
      Loses l.runner e → Concerns l e pid
  /-- The process was started for a command and was lost over it. -/
  | spent {e : Event} {i pid : Nat} : l.runner.pids.length ≤ i → (l.step e).runner.pids[i]? = some pid →
      (l.step e).runner.current = none → Concerns l e pid
  /-- The process replies as soon as the command is written to it. -/
  | replied {e : Event} {pid : Nat} : l.runner.host.replies ≠ [] → l.writtenTo? e = some pid →
      Concerns l e pid

theorem step_posts {l : Lifetime} (h : Runner.Sane l.runner) (e : Event) :
    ∃ pids, Runner.Posts (l.named? e) pids l.runner (l.step e).runner := by
  cases e with
  | start => exact ⟨[], Runner.start_drains _⟩
  | invoke command =>
    obtain ⟨pids, hasked⟩ := Runner.invoke_asked h command
    exact ⟨pids, step_invoke l command ▸ hasked.posts⟩
  | cancel future => exact ⟨[], Runner.futures_drains _ _⟩
  | dispose => exact ⟨[], Runner.dispose_drains _⟩
  | output i bytes => exact ⟨[], Runner.readOutput_drains _ i bytes⟩
  | errors i bytes => exact ⟨[], Runner.readErrors_drains _ i bytes⟩
  | ended i exitCode => exact ⟨[], (Runner.noteExit_drains _ i exitCode).drains (Runner.endOutput_drains _ i)⟩
  | broken i exitCode reason =>
    exact ⟨[], (Runner.noteExit_drains _ i exitCode).drains (Runner.outputClosed_drains _ i _)⟩
  | turn i exitCode input isKillable =>
    exact ⟨[], Runner.modify_drains _ i (fun _ _ => rfl) fun _ _ => List.Subset.refl _⟩
  | world host => exact ⟨[], Runner.same_drains rfl (le_refl _) rfl⟩

/-- An answer is named for the first time. -/
theorem named?_later {l : Lifetime} (h : Runner.Sane l.runner) {e : Event} {f : Nat}
    (hf : l.named? e = some f) : l.runner.futures.outcomes.length ≤ f := by
  cases e with
  | invoke command =>
    obtain ⟨pids, hasked⟩ := Runner.invoke_asked h command
    exact hasked.later f hf
  | _ => cases hf

/-- An open answer is closed by its owner, or for what becomes of the process that owes it. -/
theorem concerns_of_closed {l : Lifetime} (h : Kept l) {e : Event} {f : Nat}
    (hopen : l.outcome? f = some .pending) (hclosed : (l.step e).outcome? f ≠ some .pending) :
    e = .cancel f ∨ ∃ pid, l.runner.Owes pid f ∧ Concerns l e pid := by
  obtain ⟨i, p, hi, hp, hmem⟩ : ∃ i p, l.runner.current = some i ∧ l.runner.processes[i]? = some p ∧
      f ∈ p.transport.pending := by
    obtain ⟨i, g, q, hi, hq, hmem⟩ := h.sane.queued f hopen
    rw [Runner.queues_getElem?] at hq
    obtain ⟨p, hp, hcell⟩ := Option.map_eq_some_iff.1 hq
    cases hcell
    exact ⟨i, p, hi, hp, hmem⟩
  obtain ⟨hlive, -, -⟩ := h.sane.inUse i hi
  have howes : l.runner.Owes p.pid f := ⟨p, List.mem_of_getElem? hp, rfl, hmem⟩
  have hpid : l.runner.pids[i]? = some p.pid := Runner.pids_getElem? hp
  have hlost : Loses l.runner e → ∃ pid, l.runner.Owes pid f ∧ Concerns l e pid :=
    fun hloses => ⟨p.pid, howes, .lost hi hpid hloses⟩
  -- the readers of another process change no answer
  have hreported : ∀ j, e.reporter? = some j → ∃ pid, l.runner.Owes pid f ∧ Concerns l e pid := by
    intro j hj
    by_cases hcurrent : l.runner.current = some j
    · obtain rfl : i = j := Option.some.inj (hi.symm.trans hcurrent)
      exact ⟨p.pid, howes, .reported hi hpid hj⟩
    · refine absurd ?_ hclosed
      rw [outcome?, (step_late h.sane hj hcurrent).1.rest]
      exact hopen
  cases e with
  | start =>
    refine absurd ?_ hclosed
    have hsame : l.runner.start = (.ok (), l.runner) := by
      unfold Runner.start Runner.isRunning
      simp only [hlive, hi, Option.isSome_some, Bool.false_eq_true, if_false, if_true]
    rw [outcome?, step, hsame]
    exact hopen
  | invoke command =>
    refine .inr ?_
    cases hexited : p.exitCode with
    | some code => exact hlost (.exited command hi hp hexited)
    | none =>
      by_cases htakes : Transport.writeFault? p.transport.profile p.input = none
      · obtain ⟨f', r', hw, hinvoke⟩ := Runner.invoke_taken h.sane hi hp hexited htakes command
        obtain ⟨hposts, -, hsilent⟩ := Runner.write_taken_posts hp hw
        have hrunner : (l.step (.invoke command)).runner = r' := by rw [step_invoke, hinvoke]
        refine ⟨p.pid, howes, .replied (fun hreplies => hclosed ?_) ?_⟩
        · rw [outcome?, hrunner, hsilent hreplies,
            List.getElem?_append_left (List.getElem?_eq_some_iff.1 hopen).1]
          exact hopen
        · rw [writtenTo?, hrunner, hposts.drop_written]
          rfl
      · exact hlost (.refused command hi hp htakes)
  | cancel g =>
    by_cases hg : g = f
    · exact .inl (congrArg Event.cancel hg)
    · refine absurd (((Futures.cancel_closes l.runner.futures g).waiting f).2 ⟨hopen, ?_⟩) hclosed
      exact fun hin => hg (List.mem_singleton.1 hin).symm
  | dispose => exact .inr (hlost .dispose)
  | output j bytes => exact .inr (hreported j rfl)
  | errors j bytes => exact .inr (hreported j rfl)
  | ended j exitCode => exact .inr (hreported j rfl)
  | broken j exitCode reason => exact .inr (hreported j rfl)
  | turn j exitCode input isKillable => exact absurd hopen hclosed
  | world host => exact absurd hopen hclosed

/-- An answer that is settled as soon as it is named has failed before anything was written, or is
settled for what becomes of the process written to last. -/
theorem concerns_of_named {l : Lifetime} (h : Kept l) {e : Event} {f : Nat} {o : Outcome}
    (hf : l.named? e = some f) (ho : (l.step e).outcome? f = some o) (hne : o ≠ .pending) :
    (l.writtenTo? e = none ∧ ∃ error, o = .failed error) ∨
      ∃ pid, l.writtenTo? e = some pid ∧ Concerns l e pid := by
  cases e with
  | invoke command =>
    obtain ⟨pids, hasked⟩ := Runner.invoke_asked h.sane command
    have hwritten : l.writtenTo? (.invoke command) = pids.getLast? := by
      rw [writtenTo?, step_invoke, hasked.posts.drop_written]
    rw [outcome?, step_invoke] at ho
    rcases hasked.settled f o hf ho hne with ⟨rfl, hfailed⟩ | ⟨pid, hlast, hreplied | hrefusal⟩
    · exact .inl ⟨hwritten, hfailed⟩
    · exact .inr ⟨pid, hwritten.trans hlast, .replied hreplied (hwritten.trans hlast)⟩
    · refine .inr ⟨pid, hwritten.trans hlast, ?_⟩
      cases hrefusal with
      | inUse hi hp hpid hfault =>
        exact .lost hi (hpid ▸ Runner.pids_getElem? hp) (.refused command hi hp hfault)
      | started hnew hplace hnone =>
        refine .spent hnew ?_ ?_ <;> rw [step_invoke]
        · exact hplace
        · exact hnone
  | _ => cases hf

end Lifetime

namespace Delivery

open Lifetime (Kept Concerns)
open Runner (Numbered Posts)

/-- A runner that has not started anything. -/
def new (profile : Profile) (host : Host) : Delivery :=
  { life := .new profile host, addressee := fun _ => none }

/-- One event. -/
def step (d : Delivery) (e : Event) : Delivery :=
  { life := d.life.step e
    addressee := fun f => if d.life.named? e = some f then d.life.writtenTo? e else d.addressee f }

/-- Events one after the other. -/
def run (d : Delivery) (events : List Event) : Delivery :=
  events.foldl step d

/-- Every process owes answers only to commands that were written to it. -/
structure Tracked (d : Delivery) : Prop where
  kept : Kept d.life
  numbered : Numbered d.life.runner
  owes : ∀ pid f, d.life.runner.Owes pid f → d.addressee f = some pid

theorem new_tracked (profile : Profile) (host : Host) : Tracked (new profile host) where
  kept := Lifetime.new_kept profile host
  numbered := ⟨List.nodup_nil, nofun⟩
  owes := by
    rintro pid f ⟨p, hp, -⟩
    cases hp

theorem owes_lt {r : Runner} (h : r.Sane) {pid f : Nat} (hf : r.Owes pid f) :
    f < r.futures.outcomes.length := by
  obtain ⟨p, hp, -, hf⟩ := hf
  obtain ⟨i, hi⟩ := List.getElem?_of_mem hp
  exact (h.nodup i p.generation _ (by rw [Runner.queues_getElem?, hi]; rfl)).2 f hf

theorem step_tracked {d : Delivery} (h : Tracked d) (e : Event) : Tracked (d.step e) where
  kept := Lifetime.step_kept h.kept e
  numbered := by
    obtain ⟨pids, hposts⟩ := Lifetime.step_posts h.kept.sane e
    exact hposts.numbered h.numbered
  owes pid f hf := by
    obtain ⟨pids, hposts⟩ := Lifetime.step_posts h.kept.sane e
    show (if d.life.named? e = some f then _ else _) = some pid
    rcases hposts.owes pid f hf with hold | ⟨hnamed, hlast⟩
    · have hlt := owes_lt h.kept.sane hold
      rw [if_neg fun hnamed => absurd (Lifetime.named?_later h.kept.sane hnamed) (Nat.not_le.2 hlt)]
      exact h.owes pid f hold
    · rw [if_pos hnamed, Lifetime.writtenTo?, hposts.drop_written]
      exact hlast

theorem run_tracked {d : Delivery} (h : Tracked d) (events : List Event) : Tracked (d.run events) := by
  induction events generalizing d with
  | nil => exact h
  | cons e events ih => exact ih (step_tracked h e)

/-- The processes that a runner has had stay out of each other's way. -/
structure Separate (d : Delivery) : Prop where
  /-- A process id names one process. -/
  numbered : d.life.runner.pids.Nodup
  /-- What processes out of use report changes nothing but their own records. -/
  late : ∀ events, d.life.AreLate events →
    Runner.Confined (fun i => ∃ e ∈ events, e.reporter? = some i) d.life.runner (d.life.run events).runner ∧
      (d.life.run events).returned = d.life.returned
  /-- So the process in use keeps its queue and all its texts. -/
  inUse : ∀ events, d.life.AreLate events → ∀ i, d.life.runner.current = some i →
    (d.life.run events).runner.processes[i]? = d.life.runner.processes[i]?
  /-- An answer that is settled is given up by its owner, or settled for what becomes of the process that
  its command was written to, or it fails at once since nothing could be written. -/
  attributed : ∀ e f o, d.life.outcome? f = some .pending ∨ d.life.named? e = some f →
    (d.step e).life.outcome? f = some o → o ≠ .pending →
      e = .cancel f ∨ (∃ pid, (d.step e).addressee f = some pid ∧ Concerns d.life e pid) ∨
        d.life.named? e = some f ∧ (d.step e).addressee f = none ∧ ∃ error, o = .failed error

theorem Tracked.separate {d : Delivery} (h : Tracked d) : Separate d where
  numbered := h.numbered.nodup
  late _ hlate := Lifetime.run_late h.kept hlate
  inUse events hlate i hi := by
    refine (Lifetime.run_late h.kept hlate).1.others i ?_
    rintro ⟨e, he, hreporter⟩
    obtain ⟨j, hj, hother⟩ := hlate e he
    rw [hreporter] at hj
    exact hother (hi.trans hj)
  attributed e f o hf ho hne := by
    by_cases hnamed : d.life.named? e = some f
    · have haddressee : (d.step e).addressee f = d.life.writtenTo? e := if_pos hnamed
      rw [haddressee]
      rcases Lifetime.concerns_of_named h.kept hnamed ho hne with ⟨hnone, hfailed⟩ | hconcerns
      · exact .inr (.inr ⟨hnamed, hnone, hfailed⟩)
      · exact .inr (.inl hconcerns)
    · have haddressee : (d.step e).addressee f = d.addressee f := if_neg hnamed
      have hclosed : (d.life.step e).outcome? f ≠ some .pending :=
        fun hopen => hne (Option.some.inj (ho.symm.trans hopen))
      rcases Lifetime.concerns_of_closed h.kept (hf.resolve_right hnamed) hclosed with hcancel | hconcerns
      · exact .inl hcancel
      · obtain ⟨pid, howes, hconcerns⟩ := hconcerns
        exact .inr (.inl ⟨pid, haddressee.trans (h.owes pid f howes), hconcerns⟩)

/-- However many processes a runner has had, and whatever has happened to it, they stay out of each
other's way. -/
theorem run_separate (profile : Profile) (host : Host) (events : List Event) :
    Separate ((new profile host).run events) :=
  (run_tracked (new_tracked profile host) events).separate

end Delivery
end ScriptTree.Interpreter
