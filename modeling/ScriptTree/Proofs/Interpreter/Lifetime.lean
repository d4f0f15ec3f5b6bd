/-
A runner over its whole life: the calls of its owner, what the readers of every process it ever
started report, and what the world and the processes do meanwhile, in any order. Whatever has
happened, callers can rely on the runner (`Reliable`): no answer is stranded, none is settled twice,
losing a process closes what was asked for before, and a disposed runner refuses everything.
-/
import ScriptTree.Proofs.Interpreter.Runner

namespace ScriptTree.Interpreter

/-! ## The life of a runner -/

/-- What can happen to a runner. Processes are named by their place. -/
inductive Event where
  | start
  | invoke (command : String)
  | cancel (future : Nat)
  | dispose
  /-- Output bytes of a process arrive. -/
  | output (process : Nat) (bytes : List UInt8)
  /-- Error bytes of a process arrive. -/
  | errors (process : Nat) (bytes : List UInt8)
  /-- The output of a process has ended, and perhaps the process has. -/
  | ended (process : Nat) (exitCode : Option Int)
  /-- Reading the output of a process failed, and perhaps the process has ended. -/
  | broken (process : Nat) (exitCode : Option Int) (reason : String)
  /-- A process ends or not, and its input does something else with a line. -/
  | turn (process : Nat) (exitCode : Option Int) (input : Input) (isKillable : Bool)
  /-- The world changes. -/
  | world (host : Host)

/-- A runner with the answers that `invoke` has named to its owner. -/
structure Lifetime where
  runner : Runner
  returned : List Nat

namespace Lifetime

/-- A runner that has not started anything. -/
def new (profile : Profile) (host : Host) : Lifetime :=
  { runner := .new profile host, returned := [] }

/-- One event. -/
def step (l : Lifetime) : Event → Lifetime
  | .start => { l with runner := l.runner.start.2 }
  | .invoke command =>
    match l.runner.invoke command with
    | (.ok f, runner) => { runner, returned := l.returned ++ [f] }
    | (.error _, runner) => { l with runner }
  | .cancel future => { l with runner := (l.runner.cancel future).2 }
  | .dispose => { l with runner := l.runner.dispose }
  | .output i bytes => { l with runner := l.runner.readOutput i bytes }
  | .errors i bytes => { l with runner := l.runner.readErrors i bytes }
  | .ended i exitCode => { l with runner := (l.runner.noteExit i exitCode).endOutput i }
  | .broken i exitCode reason =>
    { l with runner := (l.runner.noteExit i exitCode).outputClosed i (some reason) }
  | .turn i exitCode input isKillable =>
    { l with runner := l.runner.modify i fun p => { p with exitCode, input, isKillable } }
  | .world host => { l with runner := { l.runner with host } }

/-- Events one after the other. -/
def run (l : Lifetime) (events : List Event) : Lifetime :=
  events.foldl step l

/-- The outcome of an answer. -/
def outcome? (l : Lifetime) (f : Nat) : Option Outcome :=
  l.runner.futures.outcomes[f]?

/-- The answer has come, has failed or was given up. -/
def IsDone (l : Lifetime) (f : Nat) : Prop :=
  ∃ o, l.outcome? f = some o ∧ o ≠ .pending

/-- The answer is open and waits in the queue of the process in use, once, and the runner is not
disposed. The process in use is the newest one. -/
def Waits (l : Lifetime) (f : Nat) : Prop :=
  l.runner.isDisposed = false ∧ ∃ i p, l.runner.current = some i ∧ l.runner.processes[i]? = some p ∧
    l.runner.processes.getLast? = some p ∧ p.transport.pending.count f = 1

/-- The event costs the runner the process in use. -/
inductive Loses (r : Runner) : Event → Prop
  /-- The output of the process has ended. -/
  | ended {i : Nat} (exitCode : Option Int) : r.current = some i → Loses r (.ended i exitCode)
  /-- Reading the output of the process failed. -/
  | broken {i : Nat} (exitCode : Option Int) (reason : String) : r.current = some i →
      Loses r (.broken i exitCode reason)
  /-- The poll finds that the process has ended. -/
  | exited {i : Nat} {p : Process} {code : Int} (command : String) : r.current = some i →
      r.processes[i]? = some p → p.exitCode = some code → Loses r (.invoke command)
  /-- The process does not take the line. -/
  | refused {i : Nat} {p : Process} (command : String) : r.current = some i →
      r.processes[i]? = some p → Transport.writeFault? p.transport.profile p.input ≠ none →
      Loses r (.invoke command)
  | dispose : Loses r .dispose

/-- What callers can rely on. -/
structure Reliable (l : Lifetime) : Prop where
  /-- Every answer that `invoke` has named is done or waits. -/
  served : ∀ f ∈ l.returned, l.IsDone f ∨ l.Waits f
  /-- An answer that is done never changes. -/
  settled : ∀ f, l.IsDone f → ∀ more, (l.run more).outcome? f = l.outcome? f
  /-- Whichever way the process in use is lost, no earlier answer is left open. -/
  lost : ∀ e, Loses l.runner e → ∀ f ∈ l.returned, (l.step e).IsDone f
  replaced : ∀ e i, l.runner.current = some i → (l.step e).runner.current ≠ some i →
    ∀ f ∈ l.returned, (l.step e).IsDone f
  /-- A disposed runner stays disposed, and starts and writes nothing. -/
  disposed : l.runner.isDisposed = true → ∀ more, (l.run more).runner.isDisposed = true ∧
    ∃ new, (l.run more).runner.effects = l.runner.effects ++ new ∧ ∀ a ∈ new, ¬ a.Reaches
  /-- A disposed runner answers with a failure. -/
  refused : l.runner.isDisposed = true → ∀ command, ∃ f,
    (l.step (.invoke command)).returned = l.returned ++ [f] ∧
      (l.step (.invoke command)).outcome? f = some (.failed l.runner.disposedError)

/-! ## Steps and runs -/

theorem step_invoke (l : Lifetime) (command : String) :
    (l.step (.invoke command)).runner = (l.runner.invoke command).2 := by
  unfold step
  dsimp only
  cases l.runner.invoke command with
  | mk result runner => cases result <;> rfl

theorem step_moves (l : Lifetime) (e : Event) : l.runner.Moves (l.step e).runner := by
  cases e with
  | start => exact Runner.start_moves _
  | invoke command => exact step_invoke l command ▸ Runner.invoke_moves l.runner command
  | cancel future => exact Runner.cancel_moves _ future
  | dispose => exact Runner.dispose_moves _
  | output i bytes => exact Runner.readOutput_moves _ i bytes
  | errors i bytes => exact Runner.readErrors_moves _ i bytes
  | ended i exitCode => exact (Runner.noteExit_moves _ i exitCode).trans (Runner.endOutput_moves _ i)
  | broken i exitCode reason =>
    exact (Runner.noteExit_moves _ i exitCode).trans (Runner.outputClosed_moves _ i _)
  | turn i exitCode input isKillable => exact Runner.modify_moves _ i fun _ => ⟨rfl, rfl⟩
  | world host => exact Runner.host_moves _ host

theorem run_moves (l : Lifetime) (events : List Event) : l.runner.Moves (l.run events).runner := by
  induction events generalizing l with
  | nil => exact .refl _
  | cons e events ih => exact (step_moves l e).trans (ih (l.step e))

/-- The books are in order, and what was named was asked for. -/
structure Kept (l : Lifetime) : Prop where
  sane : l.runner.Sane
  named : ∀ f ∈ l.returned, f < l.runner.futures.outcomes.length

theorem step_kept {l : Lifetime} (h : Kept l) (e : Event) : Kept (l.step e) := by
  obtain ⟨hsane, hextends⟩ := step_moves l e h.sane
  refine ⟨hsane, fun f hf => ?_⟩
  have hold : ∀ f ∈ l.returned, f < (l.step e).runner.futures.outcomes.length :=
    fun f hf => lt_of_lt_of_le (h.named f hf) hextends.grows
  cases e with
  | invoke command =>
    unfold step at hf hold ⊢
    dsimp only at hf hold ⊢
    cases hinvoke : l.runner.invoke command with
    | mk result runner =>
      rw [hinvoke] at hf hold
      cases result with
      | ok named =>
        rcases List.mem_append.1 hf with hf | hf
        · exact hold f hf
        · rw [List.mem_singleton.1 hf]
          exact Runner.invoke_ok h.sane hinvoke
      | error fault => exact hold f hf
  -- nothing else names an answer
  | _ => exact hold f hf

theorem run_kept {l : Lifetime} (h : Kept l) (events : List Event) : Kept (l.run events) := by
  induction events generalizing l with
  | nil => exact h
  | cons e events ih => exact ih (step_kept h e)

theorem new_kept (profile : Profile) (host : Host) : Kept (new profile host) :=
  ⟨Runner.new_sane profile host, fun _ hf => absurd hf List.not_mem_nil⟩

/-! ## What callers can rely on -/

theorem isDone_of_closed {l : Lifetime} {f : Nat} (hf : f < l.runner.futures.outcomes.length)
    (hclosed : l.runner.futures.outcomes[f]? ≠ some .pending) : l.IsDone f := by
  refine ⟨_, List.getElem?_eq_getElem hf, fun heq => hclosed ?_⟩
  rw [List.getElem?_eq_getElem hf, heq]

/-- An open answer waits for the process in use. -/
theorem waits_of_open {l : Lifetime} (h : Kept l) {f : Nat} (hopen : l.outcome? f = some .pending) :
    l.Waits f := by
  obtain ⟨i, g, q, hi, hq, hmem⟩ := h.sane.queued f hopen
  obtain ⟨hlive, hlast, -⟩ := h.sane.inUse i hi
  obtain ⟨hnodup, -⟩ := h.sane.nodup i g q hq
  rw [Runner.queues_getElem?] at hq
  obtain ⟨p, hp, hcell⟩ := Option.map_eq_some_iff.1 hq
  cases hcell
  rw [Runner.queues, List.length_map] at hlast
  refine ⟨hlive, i, p, hi, hp, ?_, List.count_eq_one_of_mem hnodup hmem⟩
  rw [List.getLast?_eq_getElem?, ← hlast, Nat.add_sub_cancel]
  exact hp

theorem served_of_kept {l : Lifetime} (h : Kept l) : ∀ f ∈ l.returned, l.IsDone f ∨ l.Waits f := by
  intro f hf
  by_cases hopen : l.outcome? f = some .pending
  · exact .inr (waits_of_open h hopen)
  · exact .inl (isDone_of_closed (h.named f hf) hopen)

/-- Losing the process in use closes everything asked for before. -/
theorem loses_closed {l : Lifetime} (h : Kept l) {e : Event} (hloses : Loses l.runner e) {f : Nat}
    (hf : f < l.runner.futures.outcomes.length) :
    (l.step e).runner.futures.outcomes[f]? ≠ some .pending := by
  have hidle : (l.step e).runner.current = none → (l.step e).runner.futures.outcomes[f]? ≠ some .pending :=
    fun hnone => Runner.closed_through h.sane (step_moves l e) hnone (.refl _) hf
  cases hloses with
  | @ended i exitCode hi =>
    obtain ⟨hsane, -⟩ := Runner.noteExit_moves l.runner i exitCode h.sane
    exact hidle (Runner.endOutput_current hsane ((Runner.noteExit_current _ i exitCode).trans hi))
  | @broken i exitCode reason hi =>
    obtain ⟨hsane, -⟩ := Runner.noteExit_moves l.runner i exitCode h.sane
    exact hidle (Runner.outputClosed_current hsane ((Runner.noteExit_current _ i exitCode).trans hi) _)
  | exited command hi hp hcode =>
    rw [step_invoke]
    exact Runner.invoke_closed_of_exited h.sane hi hp hcode command hf
  | refused command hi hp hrefused =>
    rw [step_invoke]
    exact Runner.invoke_closed_of_refused h.sane hi hp hrefused command hf
  | dispose => exact hidle (Runner.dispose_current l.runner).1

theorem invoke_disposed {r : Runner} (hdisposed : r.isDisposed = true) (command : String) :
    r.invoke command = (.ok r.futures.outcomes.length, (r.failed r.disposedError).2) := by
  unfold Runner.invoke Runner.send
  rw [if_pos hdisposed]
  rfl

theorem reliable_of_kept {l : Lifetime} (h : Kept l) : Reliable l where
  served := served_of_kept h
  settled := by
    rintro f ⟨o, ho, hne⟩ more
    exact ((run_moves l more h.sane).2.kept f o ho hne).trans ho.symm
  lost e hloses f hf := isDone_of_closed
    (lt_of_lt_of_le (h.named f hf) (step_moves l e h.sane).2.grows) (loses_closed h hloses (h.named f hf))
  replaced e i hi hne f hf := by
    obtain ⟨-, hextends⟩ := step_moves l e h.sane
    exact isDone_of_closed (lt_of_lt_of_le (h.named f hf) hextends.grows)
      (hextends.lost i hi hne f (h.named f hf))
  disposed := by
    intro hdisposed more
    obtain ⟨-, hextends⟩ := run_moves l more h.sane
    obtain ⟨new, heffects, hquiet⟩ := hextends.quiet
    exact ⟨hextends.disposed hdisposed, new, heffects, hquiet hdisposed⟩
  refused := by
    intro hdisposed command
    refine ⟨l.runner.futures.outcomes.length, ?_⟩
    unfold step
    simp only [invoke_disposed hdisposed command]
    refine ⟨trivial, ?_⟩
    show (l.runner.futures.outcomes ++ [_])[_]? = _
    rw [List.getElem?_append_right (le_refl _), Nat.sub_self]
    rfl

/-- Whatever has happened to a runner, callers can rely on it. -/
theorem run_reliable (profile : Profile) (host : Host) (events : List Event) :
    Reliable ((new profile host).run events) :=
  reliable_of_kept (run_kept (new_kept profile host) events)

end Lifetime
end ScriptTree.Interpreter
