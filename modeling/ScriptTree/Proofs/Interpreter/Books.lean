/-
What a runner owes. At any time every open answer waits in the queue of the process in use, once, and
the queues of all other processes are empty (`Sane`). A change that keeps this must not touch an answer
that has come, must close every answer asked for before when the process in use is lost, and must not
start or write to anything once the runner is disposed (`Extends`). Both are proved here for the few
kinds of changes that everything a runner does is made of.
-/
import ScriptTree.Interpreter.Runner
import ScriptTree.Proofs.Interpreter.Queue

namespace ScriptTree.Interpreter

/-- The effect starts a process or writes to one. -/
def Effect.Reaches : Effect → Prop
  | .spawn _ _ => True
  | .write _ _ => True
  | .kill _ => False
  | .log _ _ => False

namespace Runner

/-! ## The invariant and the frame -/

/-- The generation and the queue of each process. -/
def queues (r : Runner) : List (Nat × List Nat) :=
  r.processes.map fun p => (p.generation, p.transport.pending)

/-- The books are in order. -/
structure Sane (r : Runner) : Prop where
  /-- Only the newest process is in use, and only while the runner is not disposed. -/
  inUse : ∀ i, r.current = some i →
    r.isDisposed = false ∧ i + 1 = r.queues.length ∧ ∃ q, r.queues[i]? = some (r.generation, q)
  idle : ∀ (i g : Nat) (q : List Nat), r.queues[i]? = some (g, q) → r.current ≠ some i → q = []
  nodup : ∀ (i g : Nat) (q : List Nat), r.queues[i]? = some (g, q) →
    q.Nodup ∧ ∀ f ∈ q, f < r.futures.outcomes.length
  /-- An open answer waits for the process in use. -/
  queued : ∀ f : Nat, r.futures.outcomes[f]? = some .pending →
    ∃ i g q, r.current = some i ∧ r.queues[i]? = some (g, q) ∧ f ∈ q

/-- Effects are only added, and a disposed runner starts nothing and writes nothing. -/
def Quiet (r r' : Runner) : Prop :=
  ∃ new, r'.effects = r.effects ++ new ∧ (r.isDisposed = true → ∀ a ∈ new, ¬ a.Reaches)

/-- What every change of a runner respects. -/
structure Extends (r r' : Runner) : Prop where
  grows : r.futures.outcomes.length ≤ r'.futures.outcomes.length
  kept : ∀ (f : Nat) (o : Outcome), r.futures.outcomes[f]? = some o → o ≠ .pending →
    r'.futures.outcomes[f]? = some o
  /-- Losing the process in use leaves no answer open that was asked for before. -/
  lost : ∀ i, r.current = some i → r'.current ≠ some i → ∀ f < r.futures.outcomes.length,
    r'.futures.outcomes[f]? ≠ some .pending
  disposed : r.isDisposed = true → r'.isDisposed = true
  quiet : Quiet r r'

theorem quiet_of_eq {r r' : Runner} (h : r'.effects = r.effects) : Quiet r r' :=
  ⟨[], by rw [h, List.append_nil], fun _ _ ha => absurd ha List.not_mem_nil⟩

theorem Quiet.trans {r r' r'' : Runner} (h : Quiet r r') (hd : r.isDisposed = true → r'.isDisposed = true)
    (h' : Quiet r' r'') : Quiet r r'' := by
  obtain ⟨new, he, hquiet⟩ := h
  obtain ⟨new', he', hquiet'⟩ := h'
  refine ⟨new ++ new', by rw [he', he, List.append_assoc], fun hdead a ha => ?_⟩
  rcases List.mem_append.1 ha with ha | ha
  · exact hquiet hdead a ha
  · exact hquiet' (hd hdead) a ha

theorem Extends.refl (r : Runner) : Extends r r where
  grows := le_refl _
  kept _ _ h _ := h
  lost _ h hne := absurd h hne
  disposed h := h
  quiet := quiet_of_eq rfl

/-- Once closed, an answer stays closed. -/
theorem Extends.closed {r r' : Runner} (h : Extends r r') {f : Nat} (hf : f < r.futures.outcomes.length)
    (hclosed : r.futures.outcomes[f]? ≠ some .pending) : r'.futures.outcomes[f]? ≠ some .pending := by
  rw [List.getElem?_eq_getElem hf] at hclosed
  have hne : r.futures.outcomes[f] ≠ .pending := fun heq => hclosed (congrArg some heq)
  rw [h.kept f _ (List.getElem?_eq_getElem hf) hne]
  exact fun heq => hne (Option.some.inj heq)

theorem Extends.trans {r r' r'' : Runner} (h : Extends r r') (h' : Extends r' r'') : Extends r r'' where
  grows := h.grows.trans h'.grows
  kept f o ho hne := h'.kept f o (h.kept f o ho hne) hne
  lost i hi hne f hf := by
    -- the process is lost in the first change, and what is closed then stays closed, or in the second
    by_cases hmid : r'.current = some i
    · exact h'.lost i hmid hne f (lt_of_lt_of_le hf h.grows)
    · exact h'.closed (lt_of_lt_of_le hf h.grows) (h.lost i hi hmid f hf)
  disposed hd := h'.disposed (h.disposed hd)
  quiet := h.quiet.trans h.disposed h'.quiet

/-- A change that keeps the books in order. -/
def Moves (r r' : Runner) : Prop :=
  Sane r → Sane r' ∧ Extends r r'

theorem Moves.refl (r : Runner) : Moves r r :=
  fun h => ⟨h, .refl r⟩

theorem Moves.trans {r r' r'' : Runner} (m : Moves r r') (m' : Moves r' r'') : Moves r r'' := by
  intro h
  obtain ⟨h', e⟩ := m h
  obtain ⟨h'', e'⟩ := m' h'
  exact ⟨h'', e.trans e'⟩

theorem new_sane (profile : Profile) (host : Host) : Sane (new profile host) where
  inUse i h := by cases h
  idle i g q h := by cases h
  nodup i g q h := by cases h
  queued f h := by cases h

/-! ## The queues of a runner -/

theorem queues_getElem? (r : Runner) (i : Nat) :
    r.queues[i]? = r.processes[i]?.map fun p => (p.generation, p.transport.pending) :=
  List.getElem?_map

/-- The process in use is there, and it is the one of the last start. -/
theorem Sane.process {r : Runner} (h : Sane r) {i : Nat} (hi : r.current = some i) :
    ∃ p, r.processes[i]? = some p ∧ p.generation = r.generation ∧ i + 1 = r.processes.length := by
  obtain ⟨-, hlast, q, hq⟩ := h.inUse i hi
  rw [queues_getElem?] at hq
  obtain ⟨p, hp, hcell⟩ := Option.map_eq_some_iff.1 hq
  rw [queues, List.length_map] at hlast
  exact ⟨p, hp, congrArg Prod.fst hcell, hlast⟩

/-- With no process in use nothing is open. -/
theorem Sane.closed_of_idle {r : Runner} (h : Sane r) (hnone : r.current = none) (f : Nat) :
    r.futures.outcomes[f]? ≠ some .pending := by
  intro hf
  obtain ⟨i, g, q, hi, -⟩ := h.queued f hf
  rw [hnone] at hi
  cases hi

theorem modify_getElem? (r : Runner) (i j : Nat) (f : Process → Process) :
    (r.modify i f).processes[j]? = if i = j then r.processes[j]?.map f else r.processes[j]? := by
  unfold modify
  rw [List.getElem?_modify]
  split <;> simp

theorem modify_queues_length (r : Runner) (i : Nat) (f : Process → Process) :
    (r.modify i f).queues.length = r.queues.length := by
  unfold queues modify
  rw [List.length_map, List.length_map, List.length_modify]

/-- The queue of a process that was changed, and the queues of the others. -/
theorem modify_queues {r : Runner} {i j g : Nat} {f : Process → Process} {q : List Nat}
    (hq : (r.modify i f).queues[j]? = some (g, q)) :
    (∃ p, j = i ∧ r.processes[i]? = some p ∧ (f p).generation = g ∧ (f p).transport.pending = q) ∨
      j ≠ i ∧ r.queues[j]? = some (g, q) := by
  rw [queues_getElem?, modify_getElem?] at hq
  by_cases hj : i = j
  · subst hj
    rw [if_pos rfl, Option.map_map] at hq
    obtain ⟨p, hp, hcell⟩ := Option.map_eq_some_iff.1 hq
    cases hcell
    exact .inl ⟨p, rfl, hp, rfl, rfl⟩
  · rw [if_neg hj, ← queues_getElem?] at hq
    exact .inr ⟨Ne.symm hj, hq⟩

/-- The same process is in use, and each queue comes from the one at its place. -/
structure Follows (r r' : Runner) (change : Nat → List Nat → List Nat → Prop) : Prop where
  current : r'.current = r.current
  disposed : r'.isDisposed = r.isDisposed
  generation : r'.generation = r.generation
  length : r'.queues.length = r.queues.length
  queues : ∀ (i g : Nat) (q : List Nat), r'.queues[i]? = some (g, q) →
    ∃ q₀, r.queues[i]? = some (g, q₀) ∧ change i q₀ q

section

variable {r r' : Runner} {change : Nat → List Nat → List Nat → Prop}

/-- Each queue has become one. -/
theorem Follows.forward (h : Follows r r' change) {i g : Nat} {q₀ : List Nat}
    (hq : r.queues[i]? = some (g, q₀)) :
    ∃ q, r'.queues[i]? = some (g, q) ∧ change i q₀ q := by
  have hi : i < r'.queues.length := by
    rw [h.length]
    exact (List.getElem?_eq_some_iff.1 hq).1
  obtain ⟨q₁, hq₁, hchange⟩ := h.queues i _ _ (List.getElem?_eq_getElem hi)
  rw [hq, Option.some.injEq, Prod.mk.injEq] at hq₁
  obtain ⟨rfl, rfl⟩ := hq₁
  exact ⟨_, List.getElem?_eq_getElem hi, hchange⟩

theorem Follows.inUse (h : Follows r r' change) (hsane : Sane r) (i : Nat) (hi : r'.current = some i) :
    r'.isDisposed = false ∧ i + 1 = r'.queues.length ∧ ∃ q, r'.queues[i]? = some (r'.generation, q) := by
  obtain ⟨hlive, hlast, q, hq⟩ := hsane.inUse i (h.current.symm.trans hi)
  obtain ⟨q', hq', -⟩ := h.forward hq
  exact ⟨h.disposed.trans hlive, h.length.symm ▸ hlast, q', by rw [h.generation]; exact hq'⟩

theorem Follows.extends (h : Follows r r' change)
    (grows : r.futures.outcomes.length ≤ r'.futures.outcomes.length)
    (kept : ∀ (f : Nat) (o : Outcome), r.futures.outcomes[f]? = some o → o ≠ .pending →
      r'.futures.outcomes[f]? = some o) (quiet : Quiet r r') : Extends r r' where
  grows := grows
  kept := kept
  lost _ hi hne := absurd (h.current.trans hi) hne
  disposed hd := h.disposed.trans hd
  quiet := quiet

end

/-! ## The changes a runner is made of -/

/-- Answers are closed, and some of those leave the front of their queue. -/
theorem settle_moves {r r' : Runner} {names : List Nat}
    (h : Follows r r' fun _ q₀ q => ∃ before, q₀ = before ++ q ∧ ∀ a ∈ before, a ∈ names)
    (hcloses : r.futures.Closes r'.futures names) (quiet : Quiet r r') : Moves r r' := by
  intro hsane
  refine
    ⟨{ inUse := h.inUse hsane, idle := ?_, nodup := ?_, queued := ?_ },
      h.extends hcloses.length.ge hcloses.kept quiet⟩
  · intro i g q hq hi
    obtain ⟨q₀, hq₀, before, rfl, -⟩ := h.queues i g q hq
    exact (List.append_eq_nil_iff.1 (hsane.idle i g _ hq₀ (h.current ▸ hi))).2
  · intro i g q hq
    obtain ⟨_, hq₀, before, rfl, -⟩ := h.queues i g q hq
    obtain ⟨hnodup, hlt⟩ := hsane.nodup i g _ hq₀
    exact ⟨(List.nodup_append.1 hnodup).2.1,
      fun f hf => hcloses.length.symm ▸ hlt f (List.mem_append_right _ hf)⟩
  · intro f hf
    obtain ⟨hopen, hnot⟩ := (hcloses.waiting f).1 hf
    obtain ⟨i, g, q₀, hi, hq₀, hmem⟩ := hsane.queued f hopen
    obtain ⟨q, hq, before, rfl, hin⟩ := h.forward hq₀
    refine ⟨i, g, q, h.current.trans hi, hq, ?_⟩
    -- an answer that left the queue is closed, so an open one is still there
    rcases List.mem_append.1 hmem with hb | hmem
    · exact absurd (hin f hb) hnot
    · exact hmem

/-- One more answer is asked for. If it is open it goes to the end of the queue of the process in
use. -/
theorem ask_moves {r r' : Runner} {o : Outcome}
    (h : Follows r r' fun i q₀ q => q = q₀ ∨ r.current = some i ∧ q = q₀ ++ [r.futures.outcomes.length])
    (houtcomes : r'.futures.outcomes = r.futures.outcomes ++ [o])
    (hopen : o = .pending → ∃ i g q, r.current = some i ∧ r'.queues[i]? = some (g, q) ∧
      r.futures.outcomes.length ∈ q) (quiet : Quiet r r') : Moves r r' := by
  intro hsane
  have hcount : r'.futures.outcomes.length = r.futures.outcomes.length + 1 := by
    rw [houtcomes, List.length_append, List.length_singleton]
  have hget : ∀ f < r.futures.outcomes.length, r'.futures.outcomes[f]? = r.futures.outcomes[f]? := by
    intro f hf
    rw [houtcomes, List.getElem?_append_left hf]
  refine
    ⟨{ inUse := h.inUse hsane, idle := ?_, nodup := ?_, queued := ?_ }, h.extends (by omega) ?_ quiet⟩
  · intro i g q hq hi
    obtain ⟨q₀, hq₀, rfl | ⟨hcur, -⟩⟩ := h.queues i g q hq
    · exact hsane.idle i g _ hq₀ (h.current ▸ hi)
    · exact absurd (h.current.trans hcur) hi
  · intro i g q hq
    obtain ⟨q₀, hq₀, hchange⟩ := h.queues i g q hq
    obtain ⟨hnodup, hlt⟩ := hsane.nodup i g _ hq₀
    rcases hchange with rfl | ⟨-, rfl⟩
    · exact ⟨hnodup, fun f hf => hcount.symm ▸ (hlt f hf).trans (Nat.lt_succ_self _)⟩
    · have hfresh : r.futures.outcomes.length ∉ q₀ := fun hin => lt_irrefl _ (hlt _ hin)
      refine ⟨List.concat_eq_append ▸ hnodup.concat hfresh, fun f hf => ?_⟩
      rw [hcount]
      rcases List.mem_append.1 hf with hf | hf
      · exact (hlt f hf).trans (Nat.lt_succ_self _)
      · rw [List.mem_singleton.1 hf]; exact Nat.lt_succ_self _
  · intro f hf
    have hlt : f < r'.futures.outcomes.length := (List.getElem?_eq_some_iff.1 hf).1
    by_cases hold : f < r.futures.outcomes.length
    · rw [hget f hold] at hf
      obtain ⟨i, g, q₀, hi, hq₀, hmem⟩ := hsane.queued f hf
      obtain ⟨q, hq, hchange⟩ := h.forward hq₀
      refine ⟨i, g, q, h.current.trans hi, hq, ?_⟩
      rcases hchange with rfl | ⟨-, rfl⟩
      · exact hmem
      · exact List.mem_append_left _ hmem
    · obtain rfl : f = r.futures.outcomes.length := by omega
      rw [houtcomes, List.getElem?_append_right (le_refl _), Nat.sub_self] at hf
      obtain ⟨i, g, q, hi, hq, hmem⟩ := hopen (Option.some.inj hf)
      exact ⟨i, g, q, h.current.trans hi, hq, hmem⟩
  · intro f old hold _
    rw [hget f (List.getElem?_eq_some_iff.1 hold).1]
    exact hold

/-- No process is in use any more, all queues are empty and no answer is open. -/
theorem idle_moves {r r' : Runner} {names : List Nat} (hcurrent : r'.current = none)
    (hdisposed : r.isDisposed = true → r'.isDisposed = true) (hcloses : r.futures.Closes r'.futures names)
    (hnone : ∀ f : Nat, r'.futures.outcomes[f]? ≠ some .pending)
    (hempty : ∀ (i g : Nat) (q : List Nat), r'.queues[i]? = some (g, q) → q = []) (quiet : Quiet r r') :
    Sane r' ∧ Extends r r' := by
  refine
    ⟨{ inUse := ?_, idle := fun i g q hq _ => hempty i g q hq, nodup := ?_
       queued := fun f hf => absurd hf (hnone f) },
      { grows := hcloses.length.ge, kept := hcloses.kept, lost := fun _ _ _ f _ => hnone f
        disposed := hdisposed, quiet }⟩
  · intro i hi
    rw [hcurrent] at hi
    cases hi
  · intro i g q hq
    rw [hempty i g q hq]
    exact ⟨List.nodup_nil, fun _ hf => absurd hf List.not_mem_nil⟩

/-- The newest process is given up: its queue is emptied and all in it are closed. -/
theorem clear_moves {r r' : Runner} {i : Nat} {p : Process} (h : Sane r) (hp : r.processes[i]? = some p)
    (hi : ∀ j, r.current = some j → j = i) (hcurrent : r'.current = none)
    (hdisposed : r.isDisposed = true → r'.isDisposed = true)
    (hcloses : r.futures.Closes r'.futures p.transport.pending) {f : Process → Process}
    (hf : ∀ p, (f p).transport.pending = []) (hqueues : r'.queues = (r.modify i f).queues)
    (quiet : Quiet r r') : Sane r' ∧ Extends r r' := by
  have hnone : ∀ f : Nat, r'.futures.outcomes[f]? ≠ some .pending := by
    intro f hf
    obtain ⟨hopen, hnot⟩ := (hcloses.waiting f).1 hf
    obtain ⟨j, g, q, hj, hq, hmem⟩ := h.queued f hopen
    rw [hi j hj, queues_getElem?, hp] at hq
    cases hq
    exact hnot hmem
  refine idle_moves hcurrent hdisposed hcloses hnone (fun j g q hq => ?_) quiet
  rw [hqueues] at hq
  rcases modify_queues hq with ⟨p, rfl, -, -, rfl⟩ | ⟨hj, hq⟩
  · exact hf p
  · exact h.idle j g q hq fun hcur => hj (hi j hcur)

/-- Without a process in use, a process may be started, whose queue is empty. -/
theorem started_moves {r r' : Runner} (hnone : r.current = none) (hlive : r.isDisposed = false)
    (hdisposed : r'.isDisposed = false) (hfutures : r'.futures = r.futures)
    (hqueues : r'.current = none ∧ r'.queues = r.queues ∨
      r'.current = some r.queues.length ∧ r'.queues = r.queues ++ [(r'.generation, [])])
    (heffects : ∃ new, r'.effects = r.effects ++ new) : Moves r r' := by
  intro h
  have hempty : ∀ (i g : Nat) (q : List Nat), r'.queues[i]? = some (g, q) → q = [] := by
    intro i g q hq
    rcases hqueues with ⟨-, hsame⟩ | ⟨-, hmore⟩
    · rw [hsame] at hq
      exact h.idle i g q hq (by simp [hnone])
    · rw [hmore] at hq
      rcases Nat.lt_or_ge i r.queues.length with hlt | hge
      · rw [List.getElem?_append_left hlt] at hq
        exact h.idle i g q hq (by simp [hnone])
      · rw [List.getElem?_append_right hge] at hq
        have hmem := List.mem_of_getElem? hq
        rw [List.mem_singleton] at hmem
        cases hmem
        rfl
  have hclosed : ∀ f : Nat, r'.futures.outcomes[f]? ≠ some .pending := by
    intro f
    rw [hfutures]
    exact h.closed_of_idle hnone f
  obtain ⟨new, heffects⟩ := heffects
  refine
    ⟨{ inUse := ?_, idle := fun i g q hq _ => hempty i g q hq, nodup := ?_
       queued := fun f hf => absurd hf (hclosed f) },
      { grows := (congrArg (fun fs : Futures => fs.outcomes.length) hfutures).ge
        kept := fun f o ho _ => by rw [hfutures]; exact ho
        lost := fun _ _ _ f _ => hclosed f
        disposed := fun hd => by rw [hlive] at hd; cases hd
        quiet := ⟨new, heffects, fun hd => by rw [hlive] at hd; cases hd⟩ }⟩
  · intro i hi
    rcases hqueues with ⟨hcur, -⟩ | ⟨hcur, hmore⟩
    · rw [hcur] at hi
      cases hi
    · rw [hcur] at hi
      cases hi
      refine ⟨hdisposed, by rw [hmore, List.length_append]; rfl, [], ?_⟩
      rw [hmore, List.getElem?_append_right (le_refl _), Nat.sub_self]
      rfl
  · intro i g q hq
    rw [hempty i g q hq]
    exact ⟨List.nodup_nil, fun _ hf => absurd hf List.not_mem_nil⟩

/-! ## Their simplest cases -/

/-- Nothing that the books hold changes. -/
theorem same_moves {r r' : Runner} (hcurrent : r'.current = r.current)
    (hdisposed : r'.isDisposed = r.isDisposed) (hgeneration : r'.generation = r.generation)
    (hqueues : r'.queues = r.queues) (hfutures : r'.futures = r.futures) (quiet : Quiet r r') :
    Moves r r' := by
  refine @settle_moves r r' []
    { current := hcurrent, disposed := hdisposed, generation := hgeneration
      length := congrArg List.length hqueues
      queues := fun i g q hq => ⟨q, hqueues ▸ hq, [], rfl, fun _ ha => ha⟩ } ?_ quiet
  rw [hfutures]
  exact .refl _

/-- An answer is asked for that has failed already. -/
theorem failed_moves (r : Runner) (e : SessionError) : Moves r (r.failed e).2 := by
  refine ask_moves
    { current := rfl, disposed := rfl, generation := rfl, length := rfl
      queues := fun _ _ q hq => ⟨q, hq, .inl rfl⟩ } rfl (fun h => ?_) (quiet_of_eq rfl)
  cases h

theorem act_moves (r : Runner) {effects : List Effect}
    (h : r.isDisposed = true → ∀ a ∈ effects, ¬ a.Reaches) : Moves r (r.act effects) :=
  same_moves rfl rfl rfl rfl rfl ⟨effects, rfl, h⟩

theorem log_moves (r : Runner) (actor : Actor) (event : Log.Event) : Moves r (r.act [.log actor event]) := by
  refine act_moves r fun _ a ha => ?_
  rw [List.mem_singleton.1 ha]
  exact id

theorem host_moves (r : Runner) (host : Host) : Moves r { r with host } :=
  same_moves rfl rfl rfl rfl rfl (quiet_of_eq rfl)

/-- A process changes, but not its queue. -/
theorem modify_moves (r : Runner) (i : Nat) {f : Process → Process}
    (hf : ∀ p, (f p).generation = p.generation ∧ (f p).transport.pending = p.transport.pending) :
    Moves r (r.modify i f) := by
  refine @settle_moves r (r.modify i f) []
    { current := rfl, disposed := rfl, generation := rfl, length := modify_queues_length r i f
      queues := fun j g q hq => ⟨q, ?_, [], rfl, fun _ ha => ha⟩ } (.refl _) (quiet_of_eq rfl)
  rcases modify_queues hq with ⟨p, rfl, hp, rfl, rfl⟩ | ⟨-, hq⟩
  · rw [queues_getElem?, hp, (hf p).1, (hf p).2]
    rfl
  · exact hq

/-- A process's transport serves some answers. -/
theorem absorb_moves {r : Runner} {i : Nat} {p : Process} (hp : r.processes[i]? = some p) (actor : Actor)
    {t : Transport} {c : Change} (h : Transport.Serves p.transport r.futures t c.futures) :
    Moves r (r.absorb i actor t c) := by
  obtain ⟨names, hpending, hcloses⟩ := h
  refine settle_moves
    { current := rfl, disposed := rfl, generation := rfl, length := modify_queues_length r i _
      queues := fun j g q hq => ?_ } hcloses ⟨_, rfl, fun _ a ha => ?_⟩
  · rcases modify_queues (f := fun p => { p with transport := t }) hq with
      ⟨p', rfl, hp', rfl, rfl⟩ | ⟨-, hq⟩
    · rw [hp] at hp'
      cases hp'
      exact ⟨_, by rw [queues_getElem?, hp]; rfl, names, hpending, fun _ ha => ha⟩
    · exact ⟨q, hq, [], rfl, fun _ ha => absurd ha List.not_mem_nil⟩
  · obtain ⟨e, -, rfl⟩ := List.mem_map.1 ha
    exact id

end Runner
end ScriptTree.Interpreter
