/-
Parts of a shell. Commands in parentheses, the commands of a pipeline, and those whose output becomes part of a
word run in a copy of the shell. Whatever they are, the shell itself keeps its variables, functions, aliases,
traps, flags and jobs and stays in its directory, and no exit, error or jump in them leaves it
(`subshell_apart`, `pipeline_apart`, `output_apart`).
-/
import ScriptTree.Shell.Run

namespace ScriptTree.Shell

/-! ## What a shell has of its own -/

/-- What a shell has of its own: all but the files and streams that it shares with its parts, the signals on
their way, and how the last command ended. -/
def State.own (s : State) : State :=
  { s with
    files := .empty, executables := [], opened := [], output := [], errors := [], collected := [], signals := []
    status := 0, innerStatus := none }

theorem State.own_write (s : State) (stream : Nat) (cs : Bytes) : (s.write stream cs).own = s.own := by
  unfold write
  split
  · rfl
  · rfl
  · rfl
  · split <;> rfl
  · rfl

section

variable {α β : Type}

theorem run_bind (x : Action α) (f : α → Action β) (s : State) :
    (x >>= f).run.run s = match x.run.run s with
      | (.ok a, t) => (f a).run.run t
      | (.error leave, t) => (.error leave, t) := by
  simp only [ExceptT.run_bind, StateT.run_bind]
  rcases x.run.run s with ⟨_ | _, t⟩ <;> rfl

theorem run_get (s : State) : (get : Action State).run.run s = (.ok s, s) := rfl

theorem run_set (t s : State) : (set t : Action PUnit).run.run s = (.ok ⟨⟩, t) := rfl

/-- From a state on, the shell keeps what it has of its own, and only a wait in the background leaves the
commands around. -/
structure Confined (action : Action α) (s : State) : Prop where
  own : (action.run.run s).2.own = s.own
  leaves : ∀ leave, (action.run.run s).1 = .error leave → leave = .sleeping

theorem Confined.of_ok {action : Action α} {s t : State} {a : α} (h : action.run.run s = (.ok a, t))
    (hown : t.own = s.own) : Confined action s := by
  constructor
  · rw [h]; exact hown
  · rw [h]; exact nofun

theorem Confined.bind {x : Action α} {f : α → Action β} {s : State} (hx : Confined x s)
    (hf : ∀ a t, x.run.run s = (.ok a, t) → Confined (f a) t) : Confined (x >>= f) s := by
  obtain ⟨hown, hleaves⟩ := hx
  have hrun := run_bind x f s
  rcases h : x.run.run s with ⟨leave | a, t⟩
  · rw [h] at hrun hown hleaves
    constructor
    · rw [hrun]; exact hown
    · rw [hrun]
      intro leave' heq
      cases heq
      exact hleaves leave rfl
  · rw [h] at hrun hown
    obtain ⟨hown', hleaves'⟩ := hf a t h
    constructor
    · rw [hrun]; exact hown'.trans hown
    · rw [hrun]; exact hleaves'

theorem confined_sleeping (s : State) : Confined (throw .sleeping : Action α) s := by
  constructor
  · rfl
  · intro leave h
    cases h
    rfl

end

/-! ## Parts -/

section

variable (change : State → State) (action : Action Unit) (s : State)

/-- Of a part only the files, the streams, the signals and the status are taken over. -/
theorem confined_apart : Confined (apart change action) s := by
  unfold apart
  refine .bind (.of_ok (run_get s) rfl) fun _ _ h => ?_
  cases h
  dsimp only
  generalize action.run.run (change s) = r
  match r with
  | (.error (.killed signal), t) =>
    refine .bind (.of_ok (run_set _ s) rfl) fun _ _ h => ?_
    cases h
    split
    · exact .of_ok rfl (State.own_write _ 2 _)
    · exact .of_ok rfl rfl
  | (.error .sleeping, t) => exact .bind (.of_ok (run_set _ s) rfl) fun _ u _ => confined_sleeping u
  | (.error (.breaking _), t) => exact .of_ok (run_set _ s) rfl
  | (.error (.continuing _), t) => exact .of_ok (run_set _ s) rfl
  | (.error .returning, t) => exact .of_ok (run_set _ s) rfl
  | (.error .exiting, t) => exact .of_ok (run_set _ s) rfl
  | (.error .failing, t) => exact .of_ok (run_set _ s) rfl
  | (.ok _, t) => exact .of_ok (run_set _ s) rfl

/-- Taking the output of a part together leaves the shell as it was. -/
theorem confined_collecting : Confined (collecting action) s := by
  refine .bind (.of_ok (run_get s) rfl) fun _ _ h => ?_
  cases h
  refine .bind (.of_ok (run_set _ _) rfl) fun _ _ h => ?_
  cases h
  refine .bind (confined_apart _ action _) fun _ t _ => ?_
  refine .bind (.of_ok (run_get t) rfl) fun _ _ h => ?_
  cases h
  exact .bind (.of_ok (run_set _ _) rfl) fun _ _ _ => .of_ok rfl rfl

theorem confined_runPart (fuel : Nat) : Confined (runPart (fuel + 1) change action) s :=
  confined_apart _ _ s

end

/-! ## Commands -/

variable (fuel : Nat) (s : State)

theorem run_checkStatus :
    checkStatus.run.run s =
      if s.has 'e' && s.status != 0 && !s.isCondition then (.error .exiting, s) else (.ok (), s) := by
  unfold checkStatus
  rw [run_bind, run_get]
  dsimp only
  split <;> rfl

/-- Commands in parentheses leave the shell as it was. With the flag for it, their failure ends the shell. -/
theorem subshell_apart (body : List Item) :
    ((runCommand (fuel + 2) (.subshell body)).run.run s).2.own = s.own ∧
      ∀ leave, ((runCommand (fuel + 2) (.subshell body)).run.run s).1 = .error leave →
        leave = .sleeping ∨ (leave = .exiting ∧ s.has 'e') := by
  obtain ⟨hown, hleaves⟩ := confined_runPart id (runItems (fuel + 1) body) s fuel
  unfold runCommand
  rw [run_bind]
  rcases h : (runPart (fuel + 1) id (runItems (fuel + 1) body)).run.run s with ⟨leave | _, t⟩
  · rw [h] at hown hleaves
    refine ⟨hown, fun leave' heq => .inl ?_⟩
    cases heq
    exact hleaves leave rfl
  · rw [h] at hown
    have hflags : t.has 'e' = s.has 'e' := congrArg (·.has 'e') hown
    dsimp only
    rw [run_checkStatus, hflags]
    split
    · rename_i hfails
      refine ⟨hown, fun leave heq => .inr ?_⟩
      cases heq
      rw [Bool.and_eq_true, Bool.and_eq_true] at hfails
      exact ⟨rfl, hfails.1.1⟩
    · exact ⟨hown, nofun⟩

/-- The commands of a pipeline leave the shell as it was. -/
theorem pipeline_apart (first second : Command) (more : List Command) :
    Confined (runPipeline (fuel + 2) (first :: second :: more)) s := by
  unfold runPipeline
  exact .bind (confined_collecting _ s) fun _ t _ => confined_runPart _ _ t fuel

/-- Commands whose output becomes part of a word leave the shell as it was. -/
theorem output_apart (m : Manner) (script : List Item) :
    Confined (expandPart (fuel + 1) m (.output script)) s := by
  unfold expandPart
  refine .bind (.of_ok (run_get s) rfl) fun _ _ _ => ?_
  refine .bind (confined_collecting _ _) fun _ _ _ => ?_
  exact .bind (.of_ok rfl rfl) fun _ _ _ => .of_ok rfl rfl

end ScriptTree.Shell
