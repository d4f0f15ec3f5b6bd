/-
Replies that a process plays as soon as it accepts a line. Nothing but the write of a command looks at the
replies that wait in the world, so a command that is invoked with replies waiting does what it does without
them, and then the process prints (`invoke_replies`). Hence every event is a row of events in which no
command finds a reply waiting (`Lifetime.exists_plain`): the readers' reports of the reply come after it.
-/
import ScriptTree.Proofs.Interpreter.Lifetime

namespace ScriptTree.Interpreter

/-! ## Replies are passed over -/

namespace Runner

/-- The runner in a world where other replies wait. -/
def withReplies (r : Runner) (replies : List Emission) : Runner :=
  { r with host := { r.host with replies } }

section

variable (r : Runner) (replies : List Emission)

theorem giveUp_withReplies (actor : Actor) (i : Nat) (exitCode : Option Int) (fault : Option String) :
    (r.withReplies replies).giveUp actor i exitCode fault =
      (r.giveUp actor i exitCode fault).withReplies replies := by
  unfold giveUp withReplies
  dsimp only
  split <;> rfl

theorem kill_withReplies (i : Nat) : (r.withReplies replies).kill i = (r.kill i).withReplies replies := by
  unfold kill withReplies
  dsimp only
  split <;> rfl

theorem discard_withReplies (i : Nat) :
    (r.withReplies replies).discard i = (r.discard i).withReplies replies := by
  unfold discard
  have hcurrent : (r.withReplies replies).current = r.current := rfl
  rw [hcurrent]
  by_cases hi : r.current = some i
  · have hkill := kill_withReplies { r with current := none } replies i
    have hidle : ({ r.withReplies replies with current := none } : Runner) =
        ({ r with current := none } : Runner).withReplies replies := rfl
    rw [if_pos hi, if_pos hi, hidle]
    dsimp only
    rw [hkill, giveUp_withReplies]
    rfl
  · rw [if_neg hi, if_neg hi]

theorem spawn_withReplies :
    (r.withReplies replies).spawn = (r.spawn.1, r.spawn.2.withReplies replies) := by
  have hafter : ({ r.host with replies } : Host).afterStart = { r.host.afterStart with replies } := by
    unfold Host.afterStart
    split <;> rfl
  unfold spawn withReplies act
  dsimp only
  cases r.host.lookup.command r.profile.command r.profile.installHint with
  | error e => rfl
  | ok command =>
    have hfault : ({ r.host with replies } : Host).spawnFault? command = r.host.spawnFault? command := rfl
    dsimp only
    rw [hfault, hafter]
    cases r.host.spawnFault? command with
    | some fault => rfl
    | none =>
      dsimp only
      cases Transport.new? r.profile <;> rfl

theorem ensureStarted_withReplies :
    (r.withReplies replies).ensureStarted = (r.ensureStarted.1, r.ensureStarted.2.withReplies replies) := by
  unfold ensureStarted
  have hcurrent : (r.withReplies replies).current = r.current := rfl
  have hprocesses : (r.withReplies replies).processes = r.processes := rfl
  rw [hcurrent, hprocesses]
  cases r.current with
  | none => exact spawn_withReplies r replies
  | some i =>
    dsimp only
    cases (r.processes[i]?).bind (·.exitCode) with
    | none => rfl
    | some code =>
      dsimp only
      rw [← spawn_withReplies, ← giveUp_withReplies]
      rfl

end

/-! ## A command with replies waiting -/

/-- Only the process that is there matters for a change. -/
theorem modify_congr {r : Runner} {i : Nat} {f g : Process → Process}
    (h : ∀ p, r.processes[i]? = some p → f p = g p) : r.modify i f = r.modify i g := by
  have hprocesses : (r.modify i f).processes = (r.modify i g).processes := by
    apply List.ext_getElem?
    intro j
    rw [modify_getElem?, modify_getElem?]
    by_cases hj : i = j
    · subst hj
      rw [if_pos rfl, if_pos rfl]
      cases hp : r.processes[i]? with
      | none => rfl
      | some p => exact congrArg some (h p hp)
    · rw [if_neg hj, if_neg hj]
  unfold modify at hprocesses ⊢
  rw [show r.processes.modify i f = r.processes.modify i g from hprocesses]

/-- The process at a place, if one is given, plays the next reply. -/
def replyAt (r : Runner) : Option Nat → Runner
  | none => r
  | some i => r.reply i

theorem replyAt_nil (r : Runner) (place : Option Nat) : (r.withReplies []).replyAt place = r.withReplies [] := by
  cases place <;> rfl

/-- Only a line that is taken is replied to. -/
theorem write_replies (r : Runner) (i : Nat) (command : String) : ∃ place : Option Nat,
    (∀ replies, (r.withReplies replies).write i command =
      (((r.withReplies []).write i command).1,
        (((r.withReplies []).write i command).2.withReplies replies).replyAt place)) ∧
      ∀ e, ((r.withReplies []).write i command).1 = .error e → place = none := by
  unfold write
  have hprocesses (replies : List Emission) : (r.withReplies replies).processes[i]? = r.processes[i]? := rfl
  simp only [hprocesses]
  cases r.processes[i]? with
  | none => exact ⟨none, fun _ => rfl, fun _ _ => rfl⟩
  | some p =>
    have hfutures (replies : List Emission) : (r.withReplies replies).futures = r.futures := rfl
    simp only [hfutures]
    cases p.transport.send r.futures p.input with
    | ok taken => exact ⟨some i, fun _ => rfl, fun _ h => by cases h⟩
    | error e =>
      refine ⟨none, fun replies => ?_, fun _ _ => rfl⟩
      dsimp only
      have hact (replies : List Emission) (effects : List Effect) :
          (r.withReplies replies).act effects = (r.act effects).withReplies replies := rfl
      rw [hact, hact, discard_withReplies, discard_withReplies]
      rfl

theorem send_replies (r : Runner) (command : String) : ∃ place : Option Nat,
    (∀ replies, (r.withReplies replies).send command =
      (((r.withReplies []).send command).1,
        (((r.withReplies []).send command).2.withReplies replies).replyAt place)) ∧
      ∀ e, ((r.withReplies []).send command).1 = .error e → place = none := by
  unfold send
  have hdisposed (replies : List Emission) : (r.withReplies replies).isDisposed = r.isDisposed := rfl
  simp only [hdisposed, ensureStarted_withReplies]
  cases r.isDisposed with
  | true => exact ⟨none, fun _ => rfl, fun _ h => by cases h⟩
  | false =>
    cases r.ensureStarted with
    | mk result r' =>
      cases result with
      | error e => cases e <;> exact ⟨none, fun _ => rfl, fun _ _ => rfl⟩
      | ok i =>
        obtain ⟨place, hwrite, hfailed⟩ := write_replies r' i command
        refine ⟨place, fun replies => ?_, fun e he => ?_⟩
        · simp only [Bool.false_eq_true, if_false]
          rw [hwrite replies]
        · simp only [Bool.false_eq_true, if_false] at he
          cases hsent : ((r'.withReplies []).write i command).1 with
          | ok f => rw [hsent] at he; cases he
          | error e => exact hfailed e hsent

/-- A command goes its way as if no reply waited; then a process perhaps plays the next one. -/
theorem invoke_replies (r : Runner) (command : String) : ∃ place : Option Nat, ∀ replies,
    (r.withReplies replies).invoke command =
      (((r.withReplies []).invoke command).1,
        (((r.withReplies []).invoke command).2.withReplies replies).replyAt place) := by
  obtain ⟨place, hsend, hfailed⟩ := send_replies r command
  have hhushed : (r.withReplies []).send command =
      (((r.withReplies []).send command).1, ((r.withReplies []).send command).2.withReplies []) := by
    have hnone := hsend []
    rwa [replyAt_nil] at hnone
  cases hfirst : (r.withReplies []).send command with
  | mk result r' =>
    rw [hfirst] at hhushed hfailed
    have hr' : r' = r'.withReplies [] := congrArg Prod.snd hhushed
    have hsend' (replies : List Emission) : (r.withReplies replies).send command =
        (result, (r'.withReplies replies).replyAt place) := by
      rw [hsend, hfirst]
    unfold invoke
    simp only [hfirst]
    cases result with
    | ok f => exact ⟨place, fun replies => by simp only [hsend']⟩
    | error e =>
      obtain rfl := hfailed e rfl
      cases e with
      | launch f => exact ⟨none, fun replies => by simp only [hsend']⟩
      | session e =>
        -- the first line was not taken, and so not replied to
        obtain ⟨place', hagain, hfailed'⟩ := send_replies r' command
        rw [← hr'] at hagain hfailed'
        refine ⟨place', fun replies => ?_⟩
        simp only [hsend', replyAt]
        rw [hagain]
        cases hsecond : r'.send command with
        | mk result r'' =>
          rw [hsecond] at hfailed'
          cases result with
          | ok f => rfl
          | error e =>
            obtain rfl := hfailed' e rfl
            cases e <;> rfl

end Runner

/-! ## Events without replies -/

namespace Lifetime

/-- No reply waits for the command that is invoked, if the event is one. -/
def IsPlain (l : Lifetime) : Event → Prop
  | .invoke _ => l.runner.host.replies = []
  | _ => True

/-- All events of a row are plain when they come. -/
def ArePlain (l : Lifetime) : List Event → Prop
  | [] => True
  | e :: events => l.IsPlain e ∧ (l.step e).ArePlain events

/-- What a process prints is what its readers report one after the other. -/
theorem exists_plain_emit (l : Lifetime) (i : Nat) (e : Emission) : ∃ events, l.ArePlain events ∧
    l.run events = { l with runner := l.runner.emit i e } := by
  unfold Runner.emit
  cases hp : l.runner.processes[i]? with
  | none => exact ⟨[], trivial, rfl⟩
  | some p =>
    cases hread : p.isRead with
    | true =>
      simp only [hread, if_true]
      cases e.exit with
      | none => exact ⟨[.errors i e.stderr, .output i e.stdout], ⟨trivial, trivial, trivial⟩, rfl⟩
      | some code =>
        exact ⟨[.errors i e.stderr, .output i e.stdout, .ended i (some code)],
          ⟨trivial, trivial, trivial, trivial⟩, rfl⟩
    | false =>
      simp only [hread, Bool.false_eq_true, if_false]
      cases e.exit with
      | none => exact ⟨[], trivial, rfl⟩
      | some code =>
        refine ⟨[.turn i (some code) p.input p.isKillable], ⟨trivial, trivial⟩, ?_⟩
        show ({ l with runner := l.runner.modify i _ } : Lifetime) = { l with runner := l.runner.modify i _ }
        rw [Runner.modify_congr]
        intro p' hp'
        rw [hp] at hp'
        cases hp'
        rfl

theorem exists_plain_reply (l : Lifetime) (place : Option Nat) : ∃ events, l.ArePlain events ∧
    l.run events = { l with runner := l.runner.replyAt place } := by
  cases place with
  | none => exact ⟨[], trivial, rfl⟩
  | some i =>
    unfold Runner.replyAt Runner.reply
    cases l.runner.host.replies with
    | nil => exact ⟨[], trivial, rfl⟩
    | cons e replies =>
      obtain ⟨events, hplain, hrun⟩ :=
        exists_plain_emit (l.step (.world { l.runner.host with replies })) i e
      exact ⟨.world { l.runner.host with replies } :: events, ⟨trivial, hplain⟩, hrun⟩

/-- Every event is a row of events in which no command finds a reply waiting. -/
theorem exists_plain (l : Lifetime) (e : Event) : ∃ events, l.ArePlain events ∧ l.run events = l.step e := by
  have hsingle : ∀ e, l.IsPlain e → ∃ events, l.ArePlain events ∧ l.run events = l.step e :=
    fun e he => ⟨[e], ⟨he, trivial⟩, rfl⟩
  cases e with
  | invoke command =>
    -- the replies are taken out of the world, and put back when the command has gone its way
    obtain ⟨place, hinvoke⟩ := l.runner.invoke_replies command
    let hushed := l.step (.world { l.runner.host with replies := [] })
    let asked := hushed.step (.invoke command)
    let restored := asked.step (.world { asked.runner.host with replies := l.runner.host.replies })
    obtain ⟨events, hplain, hrun⟩ := exists_plain_reply restored place
    refine ⟨.world { l.runner.host with replies := [] } :: .invoke command ::
      .world { asked.runner.host with replies := l.runner.host.replies } :: events,
      ⟨trivial, rfl, trivial, hplain⟩, hrun.trans ?_⟩
    have hself : l.runner.invoke command =
        (((l.runner.withReplies []).invoke command).1,
          (((l.runner.withReplies []).invoke command).2.withReplies l.runner.host.replies).replyAt place) :=
      hinvoke l.runner.host.replies
    have hasked : asked = hushed.step (.invoke command) := rfl
    unfold step at hasked ⊢
    dsimp only at hasked ⊢
    rw [hself]
    have hhushed : hushed.runner.invoke command = (l.runner.withReplies []).invoke command := rfl
    rw [hhushed] at hasked
    cases hresult : (l.runner.withReplies []).invoke command with
    | mk result r' =>
      rw [hresult] at hasked
      cases result <;> (dsimp only [restored]; rw [hasked]; rfl)
  | _ =>
    refine hsingle _ ?_
    trivial

end Lifetime
end ScriptTree.Interpreter
