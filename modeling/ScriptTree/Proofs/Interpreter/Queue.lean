/-
The queue of a transport. Output takes answers off the front of the queue and closes those and no
others; failing the queue takes all of them off and closes them. Every answer that leaves the queue
is closed when it does, however its response turns out.
-/
import ScriptTree.Interpreter.Transport
import ScriptTree.Proofs.Interpreter.Future

namespace ScriptTree.Interpreter.Transport

/-! ## Responses -/

/-- The answer that a response settles, and how. -/
def verdict (p : Profile) (c : Completion) : Nat × Outcome :=
  (c.future, (conclude p c).1)

theorem verdict_ne_pending (p : Profile) (c : Completion) : (verdict p c).2 ≠ .pending := by
  unfold verdict conclude
  dsimp only
  split <;> simp

theorem completeAll_futures (p : Profile) (fs : Futures) (cs : List Completion) :
    (completeAll p fs cs).futures = fs.settleEach (cs.map (verdict p)) := by
  induction cs generalizing fs with
  | nil => rfl
  | cons c cs ih => exact ih _

theorem completeAll_closes (p : Profile) (fs : Futures) (cs : List Completion) :
    fs.Closes (completeAll p fs cs).futures (cs.map Completion.future) := by
  have hrow : ∀ a ∈ cs.map (verdict p), a.2 ≠ .pending := by
    intro a ha
    obtain ⟨c, -, rfl⟩ := List.mem_map.1 ha
    exact verdict_ne_pending p c
  have h := Futures.settleEach_closes fs hrow
  rw [List.map_map] at h
  rw [completeAll_futures]
  exact h

/-- Responses go to the answers at the front of the queue. -/
theorem assign_pending (pending : List Nat) (stderr : List Char) (bodies : List (List Char)) :
    (assign pending stderr bodies).1.map Completion.future ++ (assign pending stderr bodies).2 = pending := by
  induction bodies generalizing pending stderr with
  | nil => cases pending <;> rfl
  | cons body bodies ih =>
    cases pending with
    | nil => rfl
    | cons f pending =>
      show f :: _ = f :: pending
      exact congrArg _ (ih pending [])

/-! ## What enters and leaves the queue -/

theorem new?_pending {p : Profile} {t : Transport} (h : new? p = some t) : t.pending = [] := by
  obtain ⟨b, -, rfl⟩ := Option.map_eq_some_iff.1 h
  rfl

/-- A line that is taken puts one new answer at the end of the queue. -/
theorem send_ok {t t' : Transport} {fs fs' : Futures} {input : Input} {f : Nat}
    (h : t.send fs input = .ok (t', fs', f)) :
    t' = t.enqueue f ∧ f = fs.outcomes.length ∧ fs'.outcomes = fs.outcomes ++ [.pending] := by
  unfold send at h
  split at h
  · cases h
  · cases h
    exact ⟨rfl, rfl, rfl⟩

/-- From one state of the queue and the answers to the next, some answers left the front of the queue
and were closed. -/
def Serves (t : Transport) (fs : Futures) (t' : Transport) (fs' : Futures) : Prop :=
  ∃ names, t.pending = names ++ t'.pending ∧ fs.Closes fs' names

theorem Serves.refl (t : Transport) (fs : Futures) : Serves t fs t fs :=
  ⟨[], rfl, .refl fs⟩

theorem feedOutput_serves (t : Transport) (fs : Futures) (text : List Char) :
    Serves t fs (t.feedOutput fs text).1 (t.feedOutput fs text).2.futures := by
  refine ⟨(t.takeOutput text).1.map Completion.future, ?_, completeAll_closes _ fs _⟩
  exact (assign_pending t.pending t.stderr _).symm

theorem receiveOutput_serves (t : Transport) (fs : Futures) (bytes : List UInt8) :
    Serves t fs (t.receiveOutput fs bytes).1 (t.receiveOutput fs bytes).2.futures := by
  obtain ⟨names, hpending, hcloses⟩ :=
    feedOutput_serves (t.decodeOutput bytes).2 fs (t.decodeOutput bytes).1
  exact ⟨names, hpending, hcloses⟩

theorem endOutput_serves (t : Transport) (fs : Futures) :
    Serves t fs (t.endOutput fs).1 (t.endOutput fs).2.futures := by
  obtain ⟨names, hpending, hcloses⟩ := feedOutput_serves t.flushOutput.2 fs t.flushOutput.1
  exact ⟨names, hpending, hcloses⟩

theorem failAll_serves (t : Transport) (fs : Futures) (e : SessionError) :
    Serves t fs (t.failAll fs e).1 (t.failAll fs e).2 :=
  ⟨t.pending, (List.append_nil _).symm, Futures.settleAll_closes fs t.pending (by simp)⟩

theorem failOldest_serves (t : Transport) (fs : Futures) (first rest : SessionError) :
    Serves t fs (t.failOldest fs first rest).1 (t.failOldest fs first rest).2 := by
  unfold failOldest
  cases hp : t.pending with
  | nil => exact .refl t fs
  | cons i is =>
    refine ⟨i :: is, by rw [hp]; exact (List.append_nil _).symm, ?_⟩
    exact (Futures.settle_closes fs i (by simp)).trans (Futures.settleAll_closes _ is (by simp))

theorem failOldest_pending (t : Transport) (fs : Futures) (first rest : SessionError) :
    (t.failOldest fs first rest).1.pending = [] := by
  unfold failOldest
  cases hp : t.pending with
  | nil => exact hp
  | cons i is => rfl

end ScriptTree.Interpreter.Transport
