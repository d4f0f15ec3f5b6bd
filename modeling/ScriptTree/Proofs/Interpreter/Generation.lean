/-
Processes that a runner has replaced. What the readers of a process bring that is in use no more, in
any order and number, changes nothing but the record of that process (`Confined`): its queue is empty,
and the end of its output is passed over since it is not the process in use.
-/
import ScriptTree.Proofs.Interpreter.Live

namespace ScriptTree.Interpreter

/-! ## What a process out of use brings about -/

namespace Transport

/-- A response that nobody waits for settles nothing. -/
theorem assign_nil (stderr : List Char) (bodies : List (List Char)) : assign [] stderr bodies = ([], []) := by
  cases bodies <;> rfl

theorem feedOutput_idle {t : Transport} (h : t.pending = []) (fs : Futures) (text : List Char) :
    (t.feedOutput fs text).2 = ⟨fs, []⟩ := by
  unfold feedOutput takeOutput
  simp only [h, assign_nil]
  rfl

theorem receiveOutput_idle {t : Transport} (h : t.pending = []) (fs : Futures) (bytes : List UInt8) :
    (t.receiveOutput fs bytes).2 = ⟨fs, []⟩ :=
  feedOutput_idle (t := (t.decodeOutput bytes).2) h fs _

theorem endOutput_idle {t : Transport} (h : t.pending = []) (fs : Futures) :
    (t.endOutput fs).2 = ⟨fs, []⟩ :=
  feedOutput_idle (t := t.flushOutput.2) h fs _

end Transport

/-- The process whose readers bring the event. -/
def Event.reporter? : Event → Option Nat
  | .output i _ => some i
  | .errors i _ => some i
  | .ended i _ => some i
  | .broken i _ _ => some i
  | _ => none

namespace Runner

/-- Nothing but the records of the processes at some places has changed. -/
structure Confined (places : Nat → Prop) (r r' : Runner) : Prop where
  rest : r' = { r with processes := r'.processes }
  others : ∀ j, ¬ places j → r'.processes[j]? = r.processes[j]?

theorem Confined.refl (places : Nat → Prop) (r : Runner) : Confined places r r :=
  ⟨rfl, fun _ _ => rfl⟩

theorem Confined.trans {places : Nat → Prop} {r r' r'' : Runner} (h : Confined places r r')
    (h' : Confined places r' r'') : Confined places r r'' := by
  refine ⟨?_, fun j hj => (h'.others j hj).trans (h.others j hj)⟩
  rw [h'.rest, h.rest]

theorem Confined.mono {places places' : Nat → Prop} {r r' : Runner} (h : Confined places r r')
    (hsub : ∀ j, places j → places' j) : Confined places' r r' :=
  ⟨h.rest, fun j hj => h.others j fun hin => hj (hsub j hin)⟩

theorem Confined.current {places : Nat → Prop} {r r' : Runner} (h : Confined places r r') :
    r'.current = r.current := by
  rw [h.rest]

theorem modify_confined (r : Runner) (i : Nat) (f : Process → Process) : Confined (· = i) r (r.modify i f) := by
  refine ⟨rfl, fun j hj => ?_⟩
  rw [modify_getElem?, if_neg (Ne.symm hj)]

theorem noteExit_confined (r : Runner) (i : Nat) (code : Option Int) :
    Confined (· = i) r (r.noteExit i code) := by
  cases code with
  | none => exact .refl _ r
  | some code => exact modify_confined r i _

section

variable {r : Runner} {i : Nat}

/-- The queue of a process out of use is empty. -/
theorem Sane.idle_pending (h : Sane r) (hlate : r.current ≠ some i) {p : Process}
    (hp : r.processes[i]? = some p) : p.transport.pending = [] :=
  h.idle i p.generation _ (by rw [queues_getElem?, hp]; rfl) hlate

theorem absorb_confined (actor : Actor) (t : Transport) {c : Change} (hc : c = ⟨r.futures, []⟩) :
    Confined (· = i) r (r.absorb i actor t c) := by
  subst hc
  refine ⟨?_, (modify_confined r i _).others⟩
  simp only [absorb, modify, List.map_nil, List.append_nil]

theorem readOutput_confined (h : Sane r) (hlate : r.current ≠ some i) (bytes : List UInt8) :
    Confined (· = i) r (r.readOutput i bytes) := by
  unfold readOutput
  split
  · exact .refl _ r
  · rename_i p hp
    exact absorb_confined _ _ (Transport.receiveOutput_idle (h.idle_pending hlate hp) _ bytes)

/-- The end of an output that belongs to no process in use is passed over. -/
theorem outputClosed_confined (hlate : r.current ≠ some i) (fault : Option String) :
    Confined (· = i) r (r.outputClosed i fault) := by
  have hother : (r.modify i fun p => { p with isRead := false }).current ≠ some i := hlate
  unfold outputClosed
  dsimp only
  rw [decide_eq_false hother, Bool.and_false, if_neg Bool.false_ne_true]
  exact modify_confined r i _

theorem endOutput_confined (h : Sane r) (hlate : r.current ≠ some i) :
    Confined (· = i) r (r.endOutput i) := by
  unfold endOutput
  split
  · exact .refl _ r
  · rename_i p hp
    have habsorb := absorb_confined (i := i) (.reader i) (p.transport.endOutput r.futures).1
      (Transport.endOutput_idle (h.idle_pending hlate hp) r.futures)
    exact habsorb.trans (outputClosed_confined (habsorb.current ▸ hlate) none)

end

end Runner

namespace Lifetime

open Runner (Sane Confined)

/-- An event of a process out of use changes the record of that process, and nothing else. -/
theorem step_late {l : Lifetime} (h : Sane l.runner) {e : Event} {i : Nat} (he : e.reporter? = some i)
    (hlate : l.runner.current ≠ some i) :
    Confined (· = i) l.runner (l.step e).runner ∧ (l.step e).returned = l.returned := by
  cases e with
  | output j bytes =>
    cases he
    exact ⟨Runner.readOutput_confined h hlate bytes, rfl⟩
  | errors j bytes =>
    cases he
    exact ⟨Runner.modify_confined _ i _, rfl⟩
  | ended j exitCode =>
    cases he
    have hnoted := Runner.noteExit_confined l.runner i exitCode
    have hsane := (Runner.noteExit_moves l.runner i exitCode h).1
    exact ⟨hnoted.trans (Runner.endOutput_confined hsane (hnoted.current ▸ hlate)), rfl⟩
  | broken j exitCode reason =>
    cases he
    have hnoted := Runner.noteExit_confined l.runner i exitCode
    exact ⟨hnoted.trans (Runner.outputClosed_confined (hnoted.current ▸ hlate) _), rfl⟩
  | start => cases he
  | invoke command => cases he
  | cancel future => cases he
  | dispose => cases he
  | turn j exitCode input isKillable => cases he
  | world host => cases he

/-- The events come from processes that are out of use. -/
def AreLate (l : Lifetime) (events : List Event) : Prop :=
  ∀ e ∈ events, ∃ i, e.reporter? = some i ∧ l.runner.current ≠ some i

/-- However many there are, and in whatever order. -/
theorem run_late {l : Lifetime} (hkept : Kept l) {events : List Event} (hlate : l.AreLate events) :
    Confined (fun i => ∃ e ∈ events, e.reporter? = some i) l.runner (l.run events).runner ∧
      (l.run events).returned = l.returned := by
  induction events generalizing l with
  | nil => exact ⟨.refl _ _, rfl⟩
  | cons e events ih =>
    obtain ⟨i, he, hi⟩ := hlate e List.mem_cons_self
    obtain ⟨hstep, hreturned⟩ := step_late hkept.sane he hi
    have hrest : (l.step e).AreLate events := by
      intro e' he'
      obtain ⟨j, hj, hother⟩ := hlate e' (List.mem_cons_of_mem _ he')
      exact ⟨j, hj, hstep.current ▸ hother⟩
    obtain ⟨hrun, hsame⟩ := ih (step_kept hkept e) hrest
    refine ⟨(hstep.mono ?_).trans (hrun.mono ?_), hsame.trans hreturned⟩
    · rintro j rfl
      exact ⟨e, List.mem_cons_self, he⟩
    · rintro j ⟨e', he', hj⟩
      exact ⟨e', List.mem_cons_of_mem _ he', hj⟩

end Lifetime
end ScriptTree.Interpreter
