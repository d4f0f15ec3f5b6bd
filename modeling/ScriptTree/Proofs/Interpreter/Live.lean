/-
Which processes of a runner live. Every process that the runner has started is on record, and one that
has neither exited nor been killed by the runner is the one in use, or it is a stray: its output ended
or could not be read while it went on running, and waiting for its exit ran out (`run_live`). Without
strays at most one process lives, and none once the runner is disposed. Strays are never killed.
-/
import ScriptTree.Proofs.Interpreter.Lifetime

namespace ScriptTree.Interpreter

/-- The process that an effect starts. -/
def Effect.spawned? : Effect → Option Nat
  | .spawn pid _ => some pid
  | _ => none

/-- The process that an effect kills. -/
def Effect.killed? : Effect → Option Nat
  | .kill pid => some pid
  | _ => none

namespace Runner

/-- The processes that the runner has started. -/
def spawned (r : Runner) : List Nat :=
  r.effects.filterMap Effect.spawned?

/-- The processes that the runner has killed. -/
def killed (r : Runner) : List Nat :=
  r.effects.filterMap Effect.killed?

/-- The process ids on record. -/
def pids (r : Runner) : List Nat :=
  r.processes.map (·.pid)

/-- The processes that have exited. -/
def exited (r : Runner) : List Nat :=
  (r.processes.filter (·.exitCode.isSome)).map (·.pid)

/-- The runner has started the process, has not killed it, and the process has not exited. -/
def IsLive (r : Runner) (pid : Nat) : Prop :=
  pid ∈ r.spawned ∧ pid ∉ r.killed ∧ pid ∉ r.exited

theorem mem_exited {r : Runner} {pid : Nat} :
    pid ∈ r.exited ↔ ∃ p ∈ r.processes, p.exitCode ≠ none ∧ p.pid = pid := by
  rw [exited, List.mem_map]
  simp only [List.mem_filter, Option.isSome_iff_ne_none, and_assoc]

/-! ## The invariant and the frame -/

/-- Every process that still runs is accounted for: it is in use, or it is one of the strays. -/
structure Tended (strays : List Nat) (r : Runner) : Prop where
  framed : r.profile.sentinel ≠ ""
  spawned : r.spawned = r.pids
  nodup : r.pids.Nodup
  /-- No process will be started under an id that was used. -/
  used : ∀ pid ∈ r.pids ++ r.killed, pid < firstPid + r.generation
  inUse : ∀ i, r.current = some i → i < r.pids.length
  past : ∀ i ∈ strays, i < r.pids.length ∧ r.current ≠ some i
  spared : ∀ i pid, r.pids[i]? = some pid → pid ∈ r.killed → r.current ≠ some i ∧ i ∉ strays
  accounted : ∀ i p, r.processes[i]? = some p → p.exitCode = none → p.pid ∉ r.killed →
    r.current = some i ∨ i ∈ strays

/-- No process is started, killed or lost, and none that has exited runs again. -/
structure Stays (r r' : Runner) : Prop where
  profile : r'.profile = r.profile
  spawned : r'.spawned = r.spawned
  killed : r'.killed = r.killed
  pids : r'.pids = r.pids
  generation : r.generation ≤ r'.generation
  current : r'.current = r.current
  exited : ∀ (i : Nat) (p : Process), r'.processes[i]? = some p → p.exitCode = none →
    ∃ p₀, r.processes[i]? = some p₀ ∧ p₀.exitCode = none

theorem Stays.refl (r : Runner) : Stays r r where
  profile := rfl
  spawned := rfl
  killed := rfl
  pids := rfl
  generation := le_refl _
  current := rfl
  exited _ p hp hrun := ⟨p, hp, hrun⟩

theorem Stays.trans {r r' r'' : Runner} (h : Stays r r') (h' : Stays r' r'') : Stays r r'' where
  profile := h'.profile.trans h.profile
  spawned := h'.spawned.trans h.spawned
  killed := h'.killed.trans h.killed
  pids := h'.pids.trans h.pids
  generation := h.generation.trans h'.generation
  current := h'.current.trans h.current
  exited i p hp hrun := by
    obtain ⟨p', hp', hrun'⟩ := h'.exited i p hp hrun
    exact h.exited i p' hp' hrun'

theorem pids_getElem? {r : Runner} {i : Nat} {p : Process} (hp : r.processes[i]? = some p) :
    r.pids[i]? = some p.pid := by
  rw [pids, List.getElem?_map, hp]
  rfl

theorem Stays.tended {strays : List Nat} {r r' : Runner} (h : Stays r r') (ht : Tended strays r) :
    Tended strays r' where
  framed := by rw [h.profile]; exact ht.framed
  spawned := by rw [h.spawned, h.pids]; exact ht.spawned
  nodup := by rw [h.pids]; exact ht.nodup
  used pid hpid := by
    rw [h.pids, h.killed] at hpid
    exact lt_of_lt_of_le (ht.used pid hpid) (Nat.add_le_add_left h.generation _)
  inUse := by rw [h.pids, h.current]; exact ht.inUse
  past := by rw [h.pids, h.current]; exact ht.past
  spared := by rw [h.pids, h.killed, h.current]; exact ht.spared
  accounted i p hp hrun hspared := by
    obtain ⟨p₀, hp₀, hrun₀⟩ := h.exited i p hp hrun
    have hsame : some p₀.pid = some p.pid := by rw [← pids_getElem? hp₀, ← pids_getElem? hp, h.pids]
    rw [h.killed, ← Option.some.inj hsame] at hspared
    rw [h.current]
    exact ht.accounted i p₀ hp₀ hrun₀ hspared

/-! ## The changes a runner is made of -/

theorem modify_pids (r : Runner) (i : Nat) {f : Process → Process}
    (hf : ∀ p, r.processes[i]? = some p → (f p).pid = p.pid) : (r.modify i f).pids = r.pids := by
  refine List.ext_getElem? fun j => ?_
  rw [pids, pids, List.getElem?_map, List.getElem?_map, modify_getElem?]
  by_cases hj : i = j
  · subst hj
    rw [if_pos rfl]
    cases hp : r.processes[i]? with
    | none => rfl
    | some p => exact congrArg some (hf p hp)
  · rw [if_neg hj]

/-- A process changes, but neither its id nor that it has exited. -/
theorem modify_stays (r : Runner) (i : Nat) {f : Process → Process}
    (hf : ∀ p, r.processes[i]? = some p → (f p).pid = p.pid ∧ (p.exitCode ≠ none → (f p).exitCode ≠ none)) :
    Stays r (r.modify i f) := by
  refine { profile := rfl, spawned := rfl, killed := rfl, pids := modify_pids r i fun p hp => (hf p hp).1
           generation := le_refl _, current := rfl, exited := ?_ }
  intro j p hp hrun
  rw [modify_getElem?] at hp
  by_cases hj : i = j
  · subst hj
    rw [if_pos rfl] at hp
    obtain ⟨p₀, hp₀, rfl⟩ := Option.map_eq_some_iff.1 hp
    exact ⟨p₀, hp₀, by_contra fun hexited => (hf p₀ hp₀).2 hexited hrun⟩
  · rw [if_neg hj] at hp
    exact ⟨p, hp, hrun⟩

/-- What is noted starts and kills no process. -/
theorem act_stays (r : Runner) {effects : List Effect}
    (h : ∀ a ∈ effects, a.spawned? = none ∧ a.killed? = none) : Stays r (r.act effects) := by
  have hspawned : effects.filterMap Effect.spawned? = [] :=
    List.filterMap_eq_nil_iff.2 fun a ha => (h a ha).1
  have hkilled : effects.filterMap Effect.killed? = [] :=
    List.filterMap_eq_nil_iff.2 fun a ha => (h a ha).2
  refine { Stays.refl r with spawned := ?_, killed := ?_ }
  · show (r.effects ++ effects).filterMap _ = r.effects.filterMap _
    rw [List.filterMap_append, hspawned, List.append_nil]
  · show (r.effects ++ effects).filterMap _ = r.effects.filterMap _
    rw [List.filterMap_append, hkilled, List.append_nil]

theorem log_stays (r : Runner) (actor : Actor) (event : Log.Event) :
    Stays r (r.act [.log actor event]) := by
  refine act_stays r fun a ha => ?_
  rw [List.mem_singleton.1 ha]
  exact ⟨rfl, rfl⟩

theorem futures_stays (r : Runner) (futures : Futures) : Stays r { r with futures } :=
  { Stays.refl r with }

theorem host_stays (r : Runner) (host : Host) : Stays r { r with host } :=
  { Stays.refl r with }

section

variable {strays : List Nat} {r : Runner} {i : Nat}

/-- The process in use is a stray once it is in use no more. -/
theorem Tended.lose (h : Tended strays r) (hi : r.current = some i) :
    Tended (i :: strays) { r with current := none } where
  framed := h.framed
  spawned := h.spawned
  nodup := h.nodup
  used := h.used
  inUse j hj := by cases hj
  past j hj := by
    refine ⟨?_, nofun⟩
    rcases List.mem_cons.1 hj with rfl | hj
    · exact h.inUse j hi
    · exact (h.past j hj).1
  spared j pid hpid hkilled := by
    obtain ⟨hother, hnot⟩ := h.spared j pid hpid hkilled
    refine ⟨nofun, fun hmem => ?_⟩
    rcases List.mem_cons.1 hmem with rfl | hmem
    · exact hother hi
    · exact hnot hmem
  accounted j p hp hrun hspared := by
    rcases h.accounted j p hp hrun hspared with hj | hj
    · rw [hi] at hj
      exact .inr (Option.some.inj hj ▸ List.mem_cons_self)
    · exact .inr (List.mem_cons_of_mem _ hj)

/-- A stray that has exited is none. -/
theorem Tended.drop_exited (h : Tended (i :: strays) r)
    (hexited : ∀ p, r.processes[i]? = some p → p.exitCode ≠ none) : Tended strays r where
  framed := h.framed
  spawned := h.spawned
  nodup := h.nodup
  used := h.used
  inUse := h.inUse
  past j hj := h.past j (List.mem_cons_of_mem _ hj)
  spared j pid hpid hkilled := by
    obtain ⟨hother, hnot⟩ := h.spared j pid hpid hkilled
    exact ⟨hother, fun hmem => hnot (List.mem_cons_of_mem _ hmem)⟩
  accounted j p hp hrun hspared := by
    rcases h.accounted j p hp hrun hspared with hj | hj
    · exact .inl hj
    · rcases List.mem_cons.1 hj with rfl | hj
      · exact absurd hrun (hexited p hp)
      · exact .inr hj

/-- A stray that is killed is none. -/
theorem Tended.drop_killed (h : Tended (i :: strays) r) (hnew : i ∉ strays) {pid : Nat}
    (hi : r.pids[i]? = some pid) : Tended strays (r.act [.kill pid]) := by
  have hspawned : (r.act [.kill pid]).spawned = r.spawned :=
    List.filterMap_append.trans (List.append_nil _)
  have hmem : ∀ pid', pid' ∈ (r.act [.kill pid]).killed ↔ pid' ∈ r.killed ∨ pid' = pid := by
    intro pid'
    have hkilled : (r.act [.kill pid]).killed = r.killed ++ [pid] := List.filterMap_append
    rw [hkilled, List.mem_append, List.mem_singleton]
  refine { framed := h.framed, spawned := hspawned.trans h.spawned, nodup := h.nodup, used := ?_
           inUse := h.inUse, past := fun j hj => h.past j (List.mem_cons_of_mem _ hj)
           spared := ?_, accounted := ?_ }
  · intro pid' hpid
    rcases List.mem_append.1 hpid with hpid | hpid
    · exact h.used pid' (List.mem_append_left _ hpid)
    · rcases (hmem pid').1 hpid with hpid | rfl
      · exact h.used pid' (List.mem_append_right _ hpid)
      · exact h.used _ (List.mem_append_left _ (List.mem_of_getElem? hi))
  · intro j pid' hpid hdead
    rcases (hmem pid').1 hdead with hdead | rfl
    · obtain ⟨hother, hnot⟩ := h.spared j pid' hpid hdead
      exact ⟨hother, fun hj => hnot (List.mem_cons_of_mem _ hj)⟩
    · -- the ids are distinct, so this is the process killed
      obtain rfl : j = i :=
        (List.getElem?_inj (List.getElem?_eq_some_iff.1 hpid).1 h.nodup).1 (hpid.trans hi.symm)
      exact ⟨(h.past j List.mem_cons_self).2, hnew⟩
  · intro j p hp hrun hspared
    rcases h.accounted j p hp hrun fun hdead => hspared ((hmem _).2 (.inl hdead)) with hj | hj
    · exact .inl hj
    · rcases List.mem_cons.1 hj with rfl | hj
      · have hsame : r.pids[j]? = some p.pid := pids_getElem? hp
        exact absurd ((hmem _).2 (.inr (Option.some.inj (hsame.symm.trans hi)))) hspared
      · exact .inr hj

theorem kill_tended (h : Tended (i :: strays) r) (hnew : i ∉ strays) : Tended strays (r.kill i) := by
  obtain ⟨p, hp⟩ : ∃ p, r.processes[i]? = some p := by
    have hlt := (h.past i List.mem_cons_self).1
    rw [pids, List.length_map] at hlt
    exact ⟨_, List.getElem?_eq_getElem hlt⟩
  have hstays : Stays r (r.modify i Process.kill) := by
    refine modify_stays r i fun p _ => ⟨rfl, fun hexited => ?_⟩
    cases hcode : p.exitCode with
    | none => exact absurd hcode hexited
    | some code => simp [Process.kill, hcode]
  have hpid : (r.modify i Process.kill).pids[i]? = some p.pid := by
    rw [hstays.pids]
    exact pids_getElem? hp
  unfold kill
  simp only [hp]
  exact (hstays.tended h).drop_killed hnew hpid

/-- A process started under the next id is the one in use. -/
theorem Tended.started {r' : Runner} (h : Tended strays r) (hnone : r.current = none)
    (hprofile : r'.profile = r.profile) (hgeneration : r'.generation = r.generation + 1)
    {command : List String} {actor : Actor} {event : Log.Event}
    (heffects : r'.effects = r.effects ++ [.spawn (firstPid + r.generation) command, .log actor event])
    {p : Process} (hpid : p.pid = firstPid + r.generation) (hprocesses : r'.processes = r.processes ++ [p])
    (hcurrent : r'.current = some r.processes.length) : Tended strays r' := by
  have hspawned : r'.spawned = r.spawned ++ [firstPid + r.generation] := by
    rw [Runner.spawned, heffects, List.filterMap_append]
    rfl
  have hkilled : r'.killed = r.killed := by
    rw [killed, heffects, List.filterMap_append]
    exact List.append_nil _
  have hpids : r'.pids = r.pids ++ [firstPid + r.generation] := by
    rw [pids, hprocesses, List.map_append, List.map_singleton, hpid]
    rfl
  have hcount : r.processes.length = r.pids.length := (List.length_map ..).symm
  have hlonger : r'.pids.length = r.pids.length + 1 := by
    rw [hpids, List.length_append, List.length_singleton]
  have hfresh : ∀ pid ∈ r.pids ++ r.killed, pid ≠ firstPid + r.generation :=
    fun pid hmem => Nat.ne_of_lt (h.used pid hmem)
  refine { framed := hprofile ▸ h.framed, spawned := by rw [hspawned, h.spawned, hpids], nodup := ?_
           used := ?_, inUse := ?_, past := ?_, spared := ?_, accounted := ?_ }
  · rw [hpids, ← List.concat_eq_append]
    exact h.nodup.concat fun hmem => hfresh _ (List.mem_append_left _ hmem) rfl
  · intro pid hmem
    rw [hpids, hkilled, List.append_assoc, List.mem_append, List.mem_append, List.mem_singleton] at hmem
    have hold : pid ∈ r.pids ++ r.killed → pid < firstPid + r.generation := h.used pid
    rw [hgeneration]
    rcases hmem with hmem | rfl | hmem
    · have := hold (List.mem_append_left _ hmem)
      omega
    · omega
    · have := hold (List.mem_append_right _ hmem)
      omega
  · intro j hj
    rw [hcurrent] at hj
    cases hj
    omega
  · intro j hj
    have hlt := (h.past j hj).1
    refine ⟨by omega, fun hin => ?_⟩
    rw [hcurrent] at hin
    cases hin
    omega
  · intro j pid hj hdead
    rw [hkilled] at hdead
    rw [hpids] at hj
    rcases Nat.lt_or_ge j r.pids.length with hlt | hge
    · rw [List.getElem?_append_left hlt] at hj
      refine ⟨fun hin => ?_, (h.spared j pid hj hdead).2⟩
      rw [hcurrent] at hin
      cases hin
      omega
    · rw [List.getElem?_append_right hge] at hj
      have hnew := List.mem_singleton.1 (List.mem_of_getElem? hj)
      exact absurd hnew (hfresh pid (List.mem_append_right _ hdead))
  · intro j q hq hrun hspared
    rw [hkilled] at hspared
    rw [hprocesses] at hq
    rcases Nat.lt_or_ge j r.processes.length with hlt | hge
    · rw [List.getElem?_append_left hlt] at hq
      rcases h.accounted j q hq hrun hspared with hj | hj
      · rw [hnone] at hj
        cases hj
      · exact .inr hj
    · have hlt := (List.getElem?_eq_some_iff.1 hq).1
      rw [List.length_append, List.length_singleton] at hlt
      rw [hcurrent]
      exact .inl (congrArg some (by omega))

/-! ## Starting -/

theorem transport_of_framed {profile : Profile} (h : profile.sentinel ≠ "") :
    ∃ t, Transport.new? profile = some t := by
  have hchars : profile.sentinel.toList ≠ [] := fun hnil => h (String.toList_eq_nil_iff.1 hnil)
  unfold Transport.new? SentinelBuffer.new?
  rw [dif_pos hchars]
  exact ⟨_, rfl⟩

theorem spawn_tended (h : Tended strays r) (hnone : r.current = none) : Tended strays r.spawn.2 := by
  obtain ⟨transport, ht⟩ := transport_of_framed h.framed
  unfold spawn
  split
  · exact h
  · dsimp only
    split
    · exact ((host_stays r _).trans (log_stays _ _ _)).tended h
    · split
      · rename_i hunframed
        exact absurd (ht.symm.trans hunframed) (Option.some_ne_none transport)
      · exact h.started hnone rfl rfl (List.append_assoc _ _ _) rfl rfl rfl

/-! ## What the readers bring about -/

theorem readErrors_stays (r : Runner) (i : Nat) (bytes : List UInt8) : Stays r (r.readErrors i bytes) :=
  modify_stays r i fun _ _ => ⟨rfl, id⟩

theorem noteExit_stays (r : Runner) (i : Nat) (code : Option Int) : Stays r (r.noteExit i code) := by
  cases code with
  | none => exact .refl r
  | some code => exact modify_stays r i fun _ _ => ⟨rfl, fun _ => nofun⟩

theorem noteExit_exited (r : Runner) (i : Nat) (code : Int) :
    ∀ p, (r.noteExit i (some code)).processes[i]? = some p → p.exitCode ≠ none := by
  intro p hp
  unfold noteExit at hp
  rw [modify_getElem?, if_pos rfl] at hp
  obtain ⟨p₀, -, rfl⟩ := Option.map_eq_some_iff.1 hp
  nofun

theorem absorb_stays (r : Runner) (i : Nat) (actor : Actor) (t : Transport) (c : Change) :
    Stays r (r.absorb i actor t c) := by
  have hnotes : ∀ a ∈ c.events.map (Effect.log actor), a.spawned? = none ∧ a.killed? = none := by
    intro a ha
    obtain ⟨event, -, rfl⟩ := List.mem_map.1 ha
    exact ⟨rfl, rfl⟩
  have hmodify : Stays r (r.modify i fun p => { p with transport := t }) :=
    modify_stays r i fun _ _ => ⟨rfl, id⟩
  exact (hmodify.trans (futures_stays _ c.futures)).trans (act_stays _ hnotes)

theorem readOutput_stays (r : Runner) (i : Nat) (bytes : List UInt8) : Stays r (r.readOutput i bytes) := by
  unfold readOutput
  split
  · exact .refl r
  · exact absorb_stays r i _ _ _

theorem giveUp_stays (r : Runner) (actor : Actor) (i : Nat) (exitCode : Option Int)
    (fault : Option String) : Stays r (r.giveUp actor i exitCode fault) := by
  unfold giveUp
  split
  · exact .refl r
  · have hclosed : ∀ (r : Runner) (t : Transport),
        Stays r (r.modify i fun p => ({ p with transport := t }).closeInput) :=
      fun r t => modify_stays r i fun _ _ => ⟨rfl, id⟩
    exact ((log_stays r _ _).trans (hclosed _ _)).trans (futures_stays _ _)

/-- Nothing happens to the processes but that the one at the place is in use no more, if it was. -/
def MayLose (i : Nat) (r r' : Runner) : Prop :=
  Stays r r' ∨ r.current = some i ∧ Stays { r with current := none } r'

theorem outputClosed_mayLose (r : Runner) (i : Nat) (fault : Option String) :
    MayLose i r (r.outputClosed i fault) := by
  have hunread : ∀ r : Runner, Stays r (r.modify i fun p => { p with isRead := false }) :=
    fun r => modify_stays r i fun _ _ => ⟨rfl, id⟩
  unfold outputClosed
  dsimp only
  split
  · rename_i h
    rw [Bool.and_eq_true, decide_eq_true_eq, decide_eq_true_eq] at h
    exact .inr ⟨h.2, (hunread { r with current := none }).trans (giveUp_stays _ _ _ _ _)⟩
  · exact .inl (hunread r)

theorem MayLose.of_stays {r r' r'' : Runner} (h : Stays r r') (hm : MayLose i r' r'') :
    MayLose i r r'' := by
  rcases hm with hm | ⟨hi, hm⟩
  · exact .inl (h.trans hm)
  · refine .inr ⟨h.current.symm.trans hi, Stays.trans ?_ hm⟩
    exact { h with current := rfl }

theorem endOutput_mayLose (r : Runner) (i : Nat) : MayLose i r (r.endOutput i) := by
  unfold endOutput
  split
  · exact .inl (.refl r)
  · exact .of_stays (absorb_stays r i _ _ _) (outputClosed_mayLose _ i none)

/-- A process that has exited may be lost. -/
theorem MayLose.tended_of_exited {r' : Runner} (hm : MayLose i r r') (h : Tended strays r)
    (hexited : ∀ p, r.processes[i]? = some p → p.exitCode ≠ none) : Tended strays r' := by
  rcases hm with hm | ⟨hi, hm⟩
  · exact hm.tended h
  · exact hm.tended ((h.lose hi).drop_exited hexited)

theorem emit_tended (h : Tended strays r) (i : Nat) (e : Emission) : Tended strays (r.emit i e) := by
  have hread : Stays r ((r.readErrors i e.stderr).readOutput i e.stdout) :=
    (readErrors_stays r i _).trans (readOutput_stays _ i _)
  unfold emit
  split
  · exact h
  · split
    · dsimp only
      cases e.exit with
      | none => exact hread.tended h
      | some code =>
        have hnoted := (hread.trans (noteExit_stays _ i (some code))).tended h
        exact (endOutput_mayLose _ i).tended_of_exited hnoted (noteExit_exited _ i code)
    · exact (noteExit_stays r i _).tended h

/-! ## What the caller brings about -/

theorem discard_tended (h : Tended strays r) (i : Nat) : Tended strays (r.discard i) := by
  unfold discard
  split
  · rename_i hi
    have hnew : i ∉ strays := fun hmem => (h.past i hmem).2 hi
    exact (giveUp_stays _ _ _ _ _).tended (kill_tended (h.lose hi) hnew)
  · exact h

theorem reply_tended (h : Tended strays r) (i : Nat) : Tended strays (r.reply i) := by
  unfold reply
  split
  · exact h
  · exact emit_tended ((host_stays r _).tended h) i _

theorem write_tended (h : Tended strays r) (i : Nat) (command : String) :
    Tended strays (r.write i command).2 := by
  unfold write
  split
  · exact h
  · rename_i p _
    have hlines : ∀ a ∈ (Transport.linesOut r.profile p.input command).map (Effect.write p.pid),
        a.spawned? = none ∧ a.killed? = none := by
      intro a ha
      obtain ⟨line, -, rfl⟩ := List.mem_map.1 ha
      exact ⟨rfl, rfl⟩
    dsimp only
    split
    · rename_i t futures future _
      have hmodify : Stays r (r.modify i fun p => { p with transport := t }) :=
        modify_stays r i fun _ _ => ⟨rfl, id⟩
      exact reply_tended (((hmodify.trans (futures_stays _ futures)).trans (act_stays _ hlines)).tended h) i
    · exact discard_tended ((act_stays r hlines).tended h) i

theorem ensureStarted_tended (h : Tended strays r) : Tended strays r.ensureStarted.2 := by
  unfold ensureStarted
  split
  · rename_i hnone
    exact spawn_tended h hnone
  · rename_i i hi
    split
    · exact h
    · rename_i code hcode
      -- the poll finds that the process has exited
      have hexited : ∀ p, r.processes[i]? = some p → p.exitCode ≠ none := by
        intro p hp hrun
        rw [hp, Option.bind_some, hrun] at hcode
        cases hcode
      have hidle : Tended strays { r with current := none } := (h.lose hi).drop_exited hexited
      exact spawn_tended ((giveUp_stays _ _ _ _ _).tended hidle) (giveUp_current _ _ _ _ _)

theorem failed_stays (r : Runner) (e : SessionError) : Stays r (r.failed e).2 :=
  futures_stays r _

theorem refuse_stays (r : Runner) (e : SessionError) : Stays r (r.refuse e).2 :=
  (log_stays r _ _).trans (failed_stays _ e)

theorem send_tended (h : Tended strays r) (command : String) : Tended strays (r.send command).2 := by
  unfold send
  split
  · exact (failed_stays r _).tended h
  · have hstarted := ensureStarted_tended h
    cases hr : r.ensureStarted with
    | mk result r' =>
      rw [hr] at hstarted
      cases result with
      | error e =>
        cases e with
        | session e => exact (refuse_stays r' e).tended hstarted
        | launch f => exact hstarted
      | ok i => exact write_tended hstarted i command

theorem invoke_tended (h : Tended strays r) (command : String) : Tended strays (r.invoke command).2 := by
  have hfirst := send_tended h command
  unfold invoke
  cases hr : r.send command with
  | mk result r' =>
    rw [hr] at hfirst
    cases result with
    | ok f => exact hfirst
    | error e =>
      cases e with
      | launch f => exact hfirst
      | session e =>
        dsimp only
        have hsecond := send_tended hfirst command
        cases hr' : r'.send command with
        | mk result r'' =>
          rw [hr'] at hsecond
          cases result with
          | ok f => exact hsecond
          | error e =>
            cases e with
            | launch f => exact hsecond
            | session e => exact (refuse_stays r'' e).tended hsecond

theorem start_tended (h : Tended strays r) : Tended strays r.start.2 := by
  unfold start
  split
  · exact h
  · split
    · exact h
    · rename_i hidle
      rw [isRunning, Bool.not_eq_true, Option.isSome_eq_false_iff, Option.isNone_iff_eq_none] at hidle
      have hspawn := spawn_tended h hidle
      cases hr : r.spawn with
      | mk result r' =>
        rw [hr] at hspawn
        cases result <;> exact hspawn

theorem abandon_stays (r : Runner) : Stays r r.abandon := by
  unfold abandon
  split
  · exact .refl r
  · have hcleared : ∀ (i : Nat) (t : Transport),
        Stays r (r.modify i fun p => { p with transport := t.clearBuffers }) :=
      fun i t => modify_stays r i fun _ _ => ⟨rfl, id⟩
    exact (hcleared _ _).trans (futures_stays _ _)

theorem dispose_tended (h : Tended strays r) : Tended strays r.dispose := by
  have hclosed : ∀ r : Runner, ∀ i, Stays r (r.modify i Process.closeInput) :=
    fun r i => modify_stays r i fun _ _ => ⟨rfl, id⟩
  have hidle : ∀ strays, Tended strays { r with current := none } → Tended strays ({ r with
      isDisposed := true, current := none, generation := r.generation + 1 }).abandon := by
    intro strays ht
    refine Stays.tended (Stays.trans ?_ (abandon_stays _)) ht
    exact { Stays.refl _ with generation := Nat.le_succ _ }
  unfold dispose
  dsimp only
  cases hi : r.current with
  | none =>
    have hstopped := hidle strays (by rw [← hi]; exact h)
    split
    · exact (log_stays _ _ _).tended hstopped
    · exact hstopped
  | some i =>
    have hnew : i ∉ strays := fun hmem => (h.past i hmem).2 hi
    have hstopped := (hclosed _ i).tended (kill_tended (hidle _ (h.lose hi)) hnew)
    split
    · exact (log_stays _ _ _).tended hstopped
    · exact hstopped

end

/-- The process at the place is in use and goes on running. -/
def runsInUse (r : Runner) (i : Nat) : Bool :=
  r.current = some i && ((r.processes[i]?).bind (·.exitCode)).isNone

/-- Whoever loses a process that goes on running leaves a stray. -/
theorem MayLose.tended_of_lost {strays : List Nat} {i : Nat} {r r' : Runner} (hm : MayLose i r r')
    (h : Tended strays r) (hlost : r.current = some i → r'.current = none) :
    Tended ((if r.runsInUse i then [i] else []) ++ strays) r' := by
  split
  · rename_i hruns
    have hi : r.current = some i := of_decide_eq_true (Bool.and_eq_true_iff.1 hruns).1
    rcases hm with hm | ⟨-, hm⟩
    · rw [hm.current, hi] at hlost
      cases hlost rfl
    · exact hm.tended (h.lose hi)
  · rename_i hruns
    by_cases hi : r.current = some i
    · refine hm.tended_of_exited h fun p hp hrun => hruns ?_
      rw [runsInUse, hi, hp, Option.bind_some, hrun]
      simp
    · exact (hm.resolve_right fun hlose => hi hlose.1).tended h

theorem new_tended {profile : Profile} (hsentinel : profile.sentinel ≠ "") (host : Host) :
    Tended [] (new profile host) where
  framed := hsentinel
  spawned := rfl
  nodup := List.nodup_nil
  used pid hpid := absurd hpid List.not_mem_nil
  inUse i hi := by cases hi
  past i hi := absurd hi List.not_mem_nil
  spared i pid hpid := by cases hpid
  accounted i p hp := by cases hp

/-- Who is alive is in use or a stray, and the other way round. -/
theorem Tended.isLive_iff {strays : List Nat} {r : Runner} (h : Tended strays r) (pid : Nat) :
    r.IsLive pid ↔ ∃ i p, r.processes[i]? = some p ∧ p.pid = pid ∧ p.exitCode = none ∧
      (r.current = some i ∨ i ∈ strays) := by
  constructor
  · rintro ⟨hspawned, hspared, hnot⟩
    rw [h.spawned] at hspawned
    obtain ⟨p, hmem, rfl⟩ := List.mem_map.1 hspawned
    have hrun : p.exitCode = none := by_contra fun hexited => hnot (mem_exited.2 ⟨p, hmem, hexited, rfl⟩)
    obtain ⟨i, hp⟩ := List.getElem?_of_mem hmem
    exact ⟨i, p, hp, rfl, hrun, h.accounted i p hp hrun hspared⟩
  · rintro ⟨i, p, hp, rfl, hrun, haccounted⟩
    have hmem := List.mem_of_getElem? hp
    refine ⟨h.spawned ▸ List.mem_map_of_mem hmem, fun hkilled => ?_, fun hexited => ?_⟩
    · obtain ⟨hother, hnot⟩ := h.spared i p.pid (pids_getElem? hp) hkilled
      exact haccounted.elim hother hnot
    · -- the ids are distinct, so the process that has exited is this one
      obtain ⟨p', hmem', hexited, hsame⟩ := mem_exited.1 hexited
      rw [List.inj_on_of_nodup_map h.nodup hmem' hmem hsame] at hexited
      exact hexited hrun

end Runner

/-! ## Strays -/

/-- A process that has exited does not run again. -/
def Event.Lasts (r : Runner) : Event → Prop
  | .turn i exitCode _ _ => ∀ p, r.processes[i]? = some p → p.exitCode ≠ none → exitCode ≠ none
  | _ => True

/-- The processes that an event makes strays: the output of the one in use ends or cannot be read, but
it goes on running and waiting for its exit runs out. -/
def Event.strays (r : Runner) : Event → List Nat
  | .ended i none => if r.runsInUse i then [i] else []
  | .broken i none _ => if r.runsInUse i then [i] else []
  | _ => []

namespace Lifetime

/-- No process that has exited runs again. -/
def Lasts (l : Lifetime) : List Event → Prop
  | [] => True
  | e :: events => e.Lasts l.runner ∧ (l.step e).Lasts events

/-- The processes that the events make strays. -/
def strays (l : Lifetime) : List Event → List Nat
  | [] => []
  | e :: events => (l.step e).strays events ++ e.strays l.runner

open Runner (Tended)

theorem step_tended {l : Lifetime} (hkept : Kept l) {strays : List Nat} (h : Tended strays l.runner)
    {e : Event} (hlasts : e.Lasts l.runner) : Tended (e.strays l.runner ++ strays) (l.step e).runner := by
  cases e with
  | start => exact Runner.start_tended h
  | invoke command => exact step_invoke l command ▸ Runner.invoke_tended h command
  | cancel future => exact (Runner.futures_stays _ _).tended h
  | dispose => exact Runner.dispose_tended h
  | output i bytes => exact (Runner.readOutput_stays _ i bytes).tended h
  | errors i bytes => exact (Runner.readErrors_stays _ i bytes).tended h
  | ended i exitCode =>
    cases exitCode with
    | none => exact (Runner.endOutput_mayLose _ i).tended_of_lost h (Runner.endOutput_current hkept.sane)
    | some code =>
      exact (Runner.endOutput_mayLose _ i).tended_of_exited
        ((Runner.noteExit_stays _ i _).tended h) (Runner.noteExit_exited _ i code)
  | broken i exitCode reason =>
    cases exitCode with
    | none =>
      exact (Runner.outputClosed_mayLose _ i _).tended_of_lost h
        fun hi => Runner.outputClosed_current hkept.sane hi _
    | some code =>
      exact (Runner.outputClosed_mayLose _ i _).tended_of_exited
        ((Runner.noteExit_stays _ i _).tended h) (Runner.noteExit_exited _ i code)
  | turn i exitCode input isKillable =>
    refine Runner.Stays.tended (Runner.modify_stays _ i ?_) h
    exact fun p hp => ⟨rfl, hlasts p hp⟩
  | world host => exact (Runner.host_stays _ host).tended h

theorem run_tended {l : Lifetime} (hkept : Kept l) {strays : List Nat} (h : Tended strays l.runner)
    {events : List Event} (hlasts : l.Lasts events) :
    Tended (l.strays events ++ strays) (l.run events).runner := by
  induction events generalizing l strays with
  | nil => exact h
  | cons e events ih =>
    rw [Lifetime.strays, List.append_assoc]
    exact ih (step_kept hkept e) (step_tended hkept h hlasts.1) hlasts.2

/-- A process of the runner that is alive is the one in use or a stray, and strays stay alive until they
exit of themselves. So without strays at most one process is alive, and none once the runner is
disposed. -/
theorem run_live {profile : Profile} (hsentinel : profile.sentinel ≠ "") (host : Host)
    {events : List Event} (hlasts : (new profile host).Lasts events) :
    let r := ((new profile host).run events).runner
    let strays := (new profile host).strays events
    (∀ pid, r.IsLive pid ↔ ∃ i p, r.processes[i]? = some p ∧ p.pid = pid ∧ p.exitCode = none ∧
        (r.current = some i ∨ i ∈ strays)) ∧
      (strays = [] → (∀ pid pid', r.IsLive pid → r.IsLive pid' → pid = pid') ∧
        (r.isDisposed = true → ∀ pid, ¬ r.IsLive pid)) := by
  intro r strays
  have hkept : Kept ((new profile host).run events) := run_kept (new_kept profile host) events
  have htended : Tended strays r := by
    have h := run_tended (new_kept profile host) (Runner.new_tended hsentinel host) hlasts
    rwa [List.append_nil] at h
  refine ⟨htended.isLive_iff, fun hnone => ?_⟩
  have hinUse : ∀ pid, r.IsLive pid →
      ∃ i p, r.processes[i]? = some p ∧ p.pid = pid ∧ r.current = some i := by
    intro pid hlive
    obtain ⟨i, p, hp, hpid, -, hi | hstray⟩ := (htended.isLive_iff pid).1 hlive
    · exact ⟨i, p, hp, hpid, hi⟩
    · rw [hnone] at hstray
      cases hstray
  constructor
  · intro pid pid' hlive hlive'
    obtain ⟨i, p, hp, rfl, hi⟩ := hinUse pid hlive
    obtain ⟨i', p', hp', rfl, hi'⟩ := hinUse pid' hlive'
    rw [hi] at hi'
    cases hi'
    rw [hp] at hp'
    cases hp'
    rfl
  · intro hdisposed pid hlive
    obtain ⟨i, -, -, -, hi⟩ := hinUse pid hlive
    have hin := (hkept.sane.inUse i hi).1
    rw [show r.isDisposed = true from hdisposed] at hin
    cases hin

/-- The process exits without notice, a command finds that out and starts the next one, and the runner
is disposed. -/
theorem run_live_exited :
    let profile : Profile := { Profile.sh with sentinel := "." }
    let host : Host :=
      { lookup := { which := [("sh", "/bin/sh")], executables := [], files := .empty }
        spawnFaults := [], gone := [], nextInputs := [], replies := [], latency := 0 }
    let l := new profile host
    let events : List Event := [.start, .turn 0 (some 3) .accepts true, .invoke "ls", .dispose]
    profile.sentinel ≠ "" ∧ l.Lasts events ∧ l.strays events = [] ∧
      (l.run events).runner.spawned = [1001, 1002] ∧ ∀ pid, ¬ (l.run events).runner.IsLive pid := by
  intro profile host l events
  have hsentinel : profile.sentinel ≠ "" := by decide
  have hlasts : l.Lasts events := ⟨trivial, fun _ _ _ => nofun, trivial, trivial, trivial⟩
  have hstrays : l.strays events = [] := rfl
  have hdisposed : (l.run events).runner.isDisposed = true := (Runner.dispose_current _).2
  exact ⟨hsentinel, hlasts, hstrays, by cbv, ((run_live hsentinel host hlasts).2 hstrays).2 hdisposed⟩

/-- The output of the process ends while the process goes on, and waiting for its exit runs out. The
next command starts a second process beside it, and disposing the runner leaves the first one alone. -/
theorem not_one_live_closed_output :
    let profile : Profile := { Profile.sh with sentinel := "." }
    let host : Host :=
      { lookup := { which := [("sh", "/bin/sh")], executables := [], files := .empty }
        spawnFaults := [], gone := [], nextInputs := [], replies := [], latency := 0 }
    let l := new profile host
    let events : List Event := [.start, .ended 0 none, .invoke "ls"]
    (l.run events).runner.IsLive 1001 ∧ (l.run events).runner.IsLive 1002 ∧
      (l.run (events ++ [.dispose])).runner.IsLive 1001 := by
  intro profile host l events
  have hspawned : (l.run events).runner.spawned = [1001, 1002] := by cbv
  have hkilled : (l.run events).runner.killed = [] := by cbv
  have hexited : (l.run events).runner.exited = [] := by cbv
  have hspawned' : (l.run (events ++ [.dispose])).runner.spawned = [1001, 1002] := by cbv
  have hkilled' : (l.run (events ++ [.dispose])).runner.killed = [1002] := by cbv
  have hexited' : (l.run (events ++ [.dispose])).runner.exited = [1002] := by cbv
  unfold Runner.IsLive
  rw [hspawned, hkilled, hexited, hspawned', hkilled', hexited']
  decide

end Lifetime
end ScriptTree.Interpreter
