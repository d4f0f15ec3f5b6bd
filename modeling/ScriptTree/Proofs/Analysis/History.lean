/-
A session over any run of operations, whatever the parser service returns on the way, with listeners
that do not call back. Between two operations the session is in order (`Orderly`): no analysis is
running, the epoch is the number of snapshots replaced so far, every root is in the index under its
own hash, and the node selected is the one that the current index stores. A selection is refused
exactly for a node that is not stored there, and then nothing happens.
-/
import ScriptTree.Proofs.Analysis.Payload
import ScriptTree.Proofs.Tree.Locate

namespace ScriptTree

namespace Analysis

/-! ## Snapshots -/

namespace Snapshot

/-- The index of the snapshot stores the node itself under its hash. -/
def Stores (s : Snapshot) (k : NodeKey) : Prop :=
  k.epoch = s.epoch ∧ ∃ t, s.find? k.hash = some t ∧ t.hash = k.hash

/-- The index goes by the nodes' own hashes and holds every root. The snapshot of epoch zero has no
nodes. -/
structure Sound (s : Snapshot) : Prop where
  roots : ∀ t ∈ s.forest.roots, s.find? t.hash = some t
  index : ∀ t ∈ s.forest.index, s.find? t.hash = some t
  hash : ∀ h t, s.find? h = some t → t.hash = h
  first : s.epoch = 0 → ∀ h, s.find? h = none

theorem blank_sound (epoch : Nat) : (blank epoch).Sound where
  roots t ht := absurd ht List.not_mem_nil
  index t ht := absurd ht List.not_mem_nil
  hash h t ht := by cases ht
  first _ _ := rfl

theorem ofPayload_sound {epoch : Nat} (hepoch : epoch ≠ 0) (source : Option String) (p : Payload) :
    (ofPayload epoch source p).Sound := by
  have nodup : (((Forest.latest p.nodes).map Node.capped).map Node.hash).Nodup := by
    rw [List.map_map]
    exact Forest.latest_nodup p.nodes
  have d := Forest.linked_describes nodup
  have hlookup : ∀ {h : Int} {t : Tree}, (h, t) ∈ (Forest.build p.nodes).nodes →
      (Forest.build p.nodes).nodes.lookup h = some t := fun hmem => Forest.lookup_of_mem d.keys hmem
  refine { roots := fun t ht => hlookup (d.roots_indexed t ht), index := ?_, hash := ?_
           first := fun h => absurd h hepoch }
  · intro t ht
    obtain ⟨⟨h, t⟩, hmem, rfl⟩ := List.mem_map.1 ht
    have hhash : t.hash = h := d.hash h t hmem
    exact hlookup (hhash.symm ▸ hmem)
  · exact fun h t ht => d.hash h t (Forest.mem_of_lookup ht)

theorem owns_iff {s : Snapshot} (hs : s.Sound) (k : NodeKey) : s.owns k = true ↔ s.Stores k := by
  unfold owns resolve? Stores
  by_cases hepoch : k.epoch = s.epoch
  · rw [if_pos hepoch, Option.isSome_iff_exists]
    constructor
    · rintro ⟨t, ht⟩
      exact ⟨hepoch, t, ht, hs.hash _ _ ht⟩
    · rintro ⟨-, t, ht, -⟩
      exact ⟨t, ht⟩
  · rw [if_neg hepoch]
    simp [hepoch]

theorem stores_key {s : Snapshot} {t : Tree} (h : s.find? t.hash = some t) : s.Stores (s.key t) :=
  ⟨rfl, t, h, rfl⟩

/-- Epoch zero stands for a node of no analysis, and none is stored. -/
theorem not_stores_zero {s : Snapshot} (hs : s.Sound) (hash : Int) : ¬ s.Stores ⟨0, hash⟩ := by
  rintro ⟨hepoch, t, ht, -⟩
  rw [hs.first hepoch.symm] at ht
  cases ht

end Snapshot

/-! ## Views -/

namespace View

/-- The state of a session between two operations. -/
structure Sound (v : View) : Prop where
  idle : v.isAnalyzing = false
  snapshot : v.snapshot.Sound
  selection : ∀ k, v.selection = some k → v.snapshot.Stores k

theorem replaced_sound {v : View} (h : v.Sound) {make : Nat → Snapshot}
    (hmake : (make (v.snapshot.epoch + 1)).Sound) : (v.replaced make).Sound where
  idle := h.idle
  snapshot := hmake
  selection k hk := by
    change World.firstSelection v.selectsRoot (make _) = some k at hk
    unfold World.firstSelection at hk
    split at hk
    · obtain ⟨t, ht, rfl⟩ := Option.map_eq_some_iff.1 hk
      exact Snapshot.stores_key (hmake.roots t (List.mem_of_mem_head? ht))
    · cases hk

theorem replaced_blank_sound {v : View} (h : v.Sound) : (v.replaced .blank).Sound :=
  replaced_sound h (Snapshot.blank_sound _)

theorem replaced_ofPayload_sound {v : View} (h : v.Sound) (source : Option String) (p : Payload) :
    (v.replaced fun epoch => .ofPayload epoch source p).Sound :=
  replaced_sound h (Snapshot.ofPayload_sound (Nat.succ_ne_zero _) source p)

end View

/-! ## Selecting -/

namespace World

variable {ι ω : Type} (env : Surroundings ι ω)

/-- A selection is refused exactly for a node that the index does not store. -/
theorem select_cases {w : World ι ω} (hs : w.snapshot.Sound) (node : Option NodeKey) :
    (w.select env node).1 = .ok () ∧ (∀ k, node = some k → w.snapshot.Stores k) ∧
        w.select env node =
          (.ok (), (w.update fun s => { s with selection := node }).announceSelection env node) ∨
      (∃ k, node = some k ∧ ¬ w.snapshot.Stores k) ∧ w.select env node = (.error .foreignNode, w) := by
  unfold select
  cases node with
  | none => exact .inl ⟨rfl, nofun, rfl⟩
  | some k =>
    rw [Option.all_some]
    by_cases hk : w.snapshot.Stores k
    · rw [if_pos ((Snapshot.owns_iff hs k).2 hk)]
      exact .inl ⟨rfl, fun k' hk' => Option.some.inj hk' ▸ hk, rfl⟩
    · rw [if_neg (fun howns => hk ((Snapshot.owns_iff hs k).1 howns))]
      exact .inr ⟨⟨k, rfl, hk⟩, rfl⟩

theorem select_sound {env : Surroundings ι ω} (henv : env.Apart) {w : World ι ω} (h : w.view.Sound)
    (node : Option NodeKey) :
    (w.select env node).2.view.Sound ∧ (w.select env node).2.snapshot = w.snapshot := by
  rcases select_cases env h.snapshot node with ⟨-, hstored, heq⟩ | ⟨-, heq⟩
  · rw [heq]
    dsimp only
    have hview := announceSelection_view henv node (w.update fun s => { s with selection := node })
    refine ⟨?_, congrArg View.snapshot hview⟩
    rw [hview]
    exact { idle := h.idle, snapshot := h.snapshot, selection := hstored }
  · rw [heq]
    exact ⟨h, rfl⟩

/-- A place is selected, or there is nothing at it and nothing happens. -/
theorem selectAt_cases {w : World ι ω} (hs : w.snapshot.Sound) (line column : Int) :
    w.selectAt env line column = (.ok none, w) ∨
      ∃ t, w.selectAt env line column = (.ok (some t), (w.select env (some (w.snapshot.key t))).2) := by
  unfold selectAt
  cases hfound : w.locate line column with
  | none => exact .inl rfl
  | some t =>
    have hstored := Snapshot.stores_key (hs.index t (Forest.locate_mem hfound))
    refine .inr ⟨t, ?_⟩
    rcases select_cases env hs (some (w.snapshot.key t)) with ⟨-, -, heq⟩ | ⟨⟨k, hk, hnot⟩, -⟩
    · dsimp only
      rw [heq]
    · exact absurd (Option.some.inj hk ▸ hstored) hnot

end World

/-! ## Operations and runs -/

/-- What can be asked of a session, and what happens beside it: somebody begins or ceases to listen
for selections or for analyses, and the rest of the world changes. -/
inductive Operation (ι ω : Type) where
  | analyze (text : String) (source : Option String)
  | analyzeFile (files : FileStore) (home : String) (path : Path)
  | clear
  | select (node : Option NodeKey)
  | selectAt (line column : Int)
  | locate (line column : Int)
  | ref (node : NodeKey)
  | resolve (node : NodeKey)
  | listen (forSelections : Bool) (listener : ι)
  | leave (forSelections : Bool) (id : Nat)
  | meanwhile (rest : ω)

/-- A session with the number of snapshots that have been replaced. -/
structure History (ι ω : Type) where
  world : World ι ω
  replaced : Nat

/-- An analysis replaces the snapshot once, by its forest or by an empty one, unless it breaks off at
something that is no failure of a stage. -/
def replacements (result : Except Failure (List Tree)) : Nat :=
  match result with
  | .ok _ => 1
  | .error f => if f.stage?.isSome then 1 else 0

namespace History

variable {ι ω : Type}

/-- A new session. -/
def new (selectsRoot : Bool) (rest : ω) : History ι ω :=
  { world := ⟨.new selectsRoot, rest⟩, replaced := 0 }

/-- The history with another world. -/
def withWorld (h : History ι ω) (world : World ι ω) : History ι ω :=
  { h with world }

/-- One operation. A script that cannot be read is not analysed. -/
def step (env : Surroundings ι ω) (h : History ι ω) : Operation ι ω → History ι ω
  | .analyze text source =>
    let ended := h.world.analyze env text source
    { world := ended.2, replaced := h.replaced + replacements ended.1 }
  | .analyzeFile files home path =>
    let ended := h.world.analyzeFile env files home path
    let isRead := (files.readText path).isOk
    { world := ended.2, replaced := h.replaced + if isRead then replacements ended.1 else 0 }
  | .clear => { world := h.world.clear env, replaced := h.replaced + 1 }
  | .select node => h.withWorld (h.world.select env node).2
  | .selectAt line column => h.withWorld (h.world.selectAt env line column).2
  -- these only read the session
  | .locate _ _ => h
  | .ref _ => h
  | .resolve _ => h
  | .listen true l =>
    h.withWorld <| h.world.update fun s =>
      { s with selectionListeners := (s.selectionListeners.subscribe l).2 }
  | .listen false l =>
    h.withWorld <| h.world.update fun s =>
      { s with analyzingListeners := (s.analyzingListeners.subscribe l).2 }
  | .leave true id =>
    h.withWorld <| h.world.update fun s =>
      { s with selectionListeners := s.selectionListeners.dispose id }
  | .leave false id =>
    h.withWorld <| h.world.update fun s =>
      { s with analyzingListeners := s.analyzingListeners.dispose id }
  | .meanwhile rest => h.withWorld { h.world with rest }

/-- Operations one after the other. -/
def run (env : Surroundings ι ω) (h : History ι ω) (operations : List (Operation ι ω)) : History ι ω :=
  operations.foldl (step env) h

/-- What holds between two operations. -/
structure Kept (h : History ι ω) : Prop where
  view : h.world.view.Sound
  epoch : h.world.snapshot.epoch = h.replaced

/-- Either the snapshot stays as it is, or it is replaced by one of the next epoch. -/
structure Advances (h h' : History ι ω) : Prop where
  kept : h'.replaced = h.replaced → h'.world.snapshot = h.world.snapshot
  replaced : h.replaced ≤ h'.replaced ∧ h'.replaced ≤ h.replaced + 1

theorem kept_of_same {h h' : History ι ω} (hkept : Kept h) (hsound : h'.world.view.Sound)
    (hsnapshot : h'.world.snapshot = h.world.snapshot) (hreplaced : h'.replaced = h.replaced) :
    Kept h' ∧ Advances h h' := by
  refine ⟨⟨hsound, ?_⟩, fun _ => hsnapshot, by omega⟩
  rw [hsnapshot, hkept.epoch, hreplaced]

theorem kept_of_replaced {h h' : History ι ω} (hkept : Kept h) {make : Nat → Snapshot}
    (hview : h'.world.view = h.world.view.replaced make) (hsound : (h.world.view.replaced make).Sound)
    (hepoch : ∀ n, (make n).epoch = n) (hreplaced : h'.replaced = h.replaced + 1) :
    Kept h' ∧ Advances h h' := by
  refine ⟨⟨hview ▸ hsound, ?_⟩, fun hsame => ?_, by omega⟩
  · have hnext : h'.world.snapshot.epoch = h.world.snapshot.epoch + 1 := by
      change h'.world.view.snapshot.epoch = _
      rw [hview]
      exact hepoch _
    rw [hnext, hkept.epoch, hreplaced]
  · omega

theorem analyze_kept {env : Surroundings ι ω} (henv : env.Apart) {h : History ι ω} (hkept : Kept h)
    (text : String) (source : Option String) :
    Kept (h.step env (.analyze text source)) ∧ Advances h (h.step env (.analyze text source)) := by
  have hidle := hkept.view.idle
  cases hpayload : World.payloadOf (env.serve text (h.world.openAnalysis env)).1 with
  | ok p =>
    obtain ⟨hresult, hview⟩ := World.analyze_of_payload text source henv hidle hpayload
    refine kept_of_replaced hkept hview (View.replaced_ofPayload_sound hkept.view source p)
      (fun _ => rfl) ?_
    show h.replaced + replacements (h.world.analyze env text source).1 = _
    rw [hresult, replacements]
  | error f =>
    cases hstage : f.stage? with
    | some e =>
      obtain ⟨hresult, hview⟩ := World.analyze_of_stage text source henv hidle hpayload hstage
      refine kept_of_replaced hkept hview (View.replaced_blank_sound hkept.view) (fun _ => rfl) ?_
      show h.replaced + replacements (h.world.analyze env text source).1 = _
      rw [hresult, replacements, hstage]
      rfl
    | none =>
      obtain ⟨hresult, hview⟩ := World.analyze_of_break text source henv hidle hpayload hstage
      refine kept_of_same hkept (hview ▸ hkept.view) (congrArg View.snapshot hview) ?_
      show h.replaced + replacements (h.world.analyze env text source).1 = _
      rw [hresult, replacements, hstage]
      rfl

theorem step_kept {env : Surroundings ι ω} (henv : env.Apart) {h : History ι ω} (hkept : Kept h)
    (o : Operation ι ω) : Kept (h.step env o) ∧ Advances h (h.step env o) := by
  cases o with
  | analyze text source => exact analyze_kept henv hkept text source
  | analyzeFile files home path =>
    cases hread : files.readText path with
    | ok text =>
      have hfile : h.world.analyzeFile env files home path =
          h.world.analyze env text (some (path.absolute home)) := by
        unfold World.analyzeFile
        rw [hread]
      have hstep : h.step env (.analyzeFile files home path) =
          h.step env (.analyze text (some (path.absolute home))) := by
        simp only [step, hfile, hread, Except.isOk, Except.toBool, if_true]
      rw [hstep]
      exact analyze_kept henv hkept text _
    | error fault =>
      have hfile : (h.world.analyzeFile env files home path).2 = h.world := by
        unfold World.analyzeFile
        rw [hread]
        split <;> first | rfl | contradiction
      have hstep : h.step env (.analyzeFile files home path) = h := by
        simp [step, hfile, hread, Except.isOk, Except.toBool]
      rw [hstep]
      exact kept_of_same hkept hkept.view rfl rfl
  | clear =>
    exact kept_of_replaced hkept (World.replaceSnapshot_view henv .blank h.world)
      (View.replaced_blank_sound hkept.view) (fun _ => rfl) rfl
  | select node =>
    obtain ⟨hsound, hsnapshot⟩ := World.select_sound henv hkept.view node
    exact kept_of_same hkept hsound hsnapshot rfl
  | selectAt line column =>
    show Kept (h.withWorld (h.world.selectAt env line column).2) ∧ Advances h (h.withWorld _)
    rcases World.selectAt_cases env hkept.view.snapshot line column with heq | ⟨t, heq⟩
    · rw [heq]
      exact kept_of_same hkept hkept.view rfl rfl
    · obtain ⟨hsound, hsnapshot⟩ :=
        World.select_sound henv hkept.view (some (h.world.snapshot.key t))
      rw [heq]
      exact kept_of_same hkept hsound hsnapshot rfl
  -- nothing else touches the view of the session
  | locate line column => exact kept_of_same hkept hkept.view rfl rfl
  | ref node => exact kept_of_same hkept hkept.view rfl rfl
  | resolve node => exact kept_of_same hkept hkept.view rfl rfl
  | listen forSelections l => cases forSelections <;> exact kept_of_same hkept hkept.view rfl rfl
  | leave forSelections id => cases forSelections <;> exact kept_of_same hkept hkept.view rfl rfl
  | meanwhile rest => exact kept_of_same hkept hkept.view rfl rfl

theorem run_kept {env : Surroundings ι ω} (henv : env.Apart) {h : History ι ω} (hkept : Kept h)
    (operations : List (Operation ι ω)) :
    Kept (h.run env operations) ∧ h.replaced ≤ (h.run env operations).replaced := by
  induction operations generalizing h with
  | nil => exact ⟨hkept, le_refl _⟩
  | cons o operations ih =>
    obtain ⟨hstep, hadvances⟩ := step_kept henv hkept o
    obtain ⟨hrun, hle⟩ := ih hstep
    exact ⟨hrun, hadvances.replaced.1.trans hle⟩

theorem new_kept (selectsRoot : Bool) (rest : ω) : Kept (new selectsRoot rest : History ι ω) where
  view := { idle := rfl, snapshot := Snapshot.blank_sound 0, selection := fun k hk => by cases hk }
  epoch := rfl

/-! ## What holds between operations -/

/-- The session is in order. -/
structure Orderly (env : Surroundings ι ω) (h : History ι ω) : Prop where
  idle : h.world.session.isAnalyzing = false
  /-- The epoch counts the snapshots replaced, and it never decreases. -/
  epoch : h.world.snapshot.epoch = h.replaced
  replaced : ∀ o, (h.step env o).replaced = h.replaced → (h.step env o).world.snapshot = h.world.snapshot
  increases : ∀ operations, h.world.snapshot.epoch ≤ (h.run env operations).world.snapshot.epoch
  /-- Every root is in the index under its own hash. -/
  roots : ∀ t ∈ h.world.snapshot.forest.roots, h.world.snapshot.find? t.hash = some t
  /-- The node selected is the one that the current index stores under its hash. -/
  selection : ∀ k, h.world.session.selection = some k → h.world.snapshot.Stores k
  /-- A selection fails exactly for a node that is not stored, in one way, and then the world with
  all who listen is as before. -/
  refused : ∀ node, (h.world.select env node).1 = .error .foreignNode ↔
    ∃ k, node = some k ∧ ¬ h.world.snapshot.Stores k
  unmoved : ∀ node f, (h.world.select env node).1 = .error f →
    f = .foreignNode ∧ (h.world.select env node).2 = h.world
  /-- A node of an earlier analysis or of none is not stored, whatever its hash. -/
  foreign : ∀ k, h.world.snapshot.Stores k → k.epoch = h.world.snapshot.epoch ∧ k.epoch ≠ 0
  /-- Selecting at a place never fails, and does nothing where there is no node. -/
  selectAt : ∀ line column, ∃ found, (h.world.selectAt env line column).1 = .ok found ∧
    (found = none → (h.world.selectAt env line column).2 = h.world)

theorem orderly_of_kept {env : Surroundings ι ω} (henv : env.Apart) {h : History ι ω} (hkept : Kept h) :
    Orderly env h where
  idle := hkept.view.idle
  epoch := hkept.epoch
  replaced o := (step_kept henv hkept o).2.kept
  increases operations := by
    obtain ⟨hrun, hle⟩ := run_kept henv hkept operations
    rw [hkept.epoch, hrun.epoch]
    exact hle
  roots := hkept.view.snapshot.roots
  selection := hkept.view.selection
  refused node := by
    rcases World.select_cases env hkept.view.snapshot node with ⟨hok, hstored, -⟩ | ⟨hforeign, heq⟩
    · rw [hok]
      constructor
      · intro h
        cases h
      · rintro ⟨k, hk, hnot⟩
        exact absurd (hstored k hk) hnot
    · rw [heq]
      exact ⟨fun _ => hforeign, fun _ => rfl⟩
  unmoved node f hf := by
    rcases World.select_cases env hkept.view.snapshot node with ⟨hok, -, -⟩ | ⟨-, heq⟩
    · rw [hok] at hf
      cases hf
    · rw [heq] at hf ⊢
      cases hf
      exact ⟨rfl, rfl⟩
  foreign k hk := by
    refine ⟨hk.1, fun hzero => ?_⟩
    obtain ⟨epoch, hash⟩ := k
    subst hzero
    exact Snapshot.not_stores_zero hkept.view.snapshot hash hk
  selectAt line column := by
    rcases World.selectAt_cases env hkept.view.snapshot line column with heq | ⟨t, heq⟩
    · rw [heq]
      exact ⟨none, rfl, fun _ => rfl⟩
    · rw [heq]
      exact ⟨some t, rfl, fun h => by cases h⟩

/-- Whatever is asked of a session, and whatever the parser service returns, the session is in order
between two operations. -/
theorem run_orderly {env : Surroundings ι ω} (henv : env.Apart) (selectsRoot : Bool) (rest : ω)
    (operations : List (Operation ι ω)) : Orderly env ((new selectsRoot rest).run env operations) :=
  orderly_of_kept henv (run_kept henv (new_kept selectsRoot rest) operations).1

/-- Two analyses find a node of the same hash while somebody listens. The node of the first is
refused after the second. -/
theorem run_orderly_same_hash_again :
    let env : Surroundings String (List Notice) :=
      { notify := fun _ notice w => { w with rest := w.rest ++ [notice] }
        serve := fun text w => (.ok text, w), note := fun _ w => w
        release := id, latency := 0 }
    let output := "[\x7b\"hashCode\":7\x7d]"
    let h := (new true []).run env [.listen true "outline", .analyze output none, .analyze output none]
    env.Apart ∧ Orderly env h ∧ h.world.session.selection = some ⟨2, 7⟩ ∧
      (h.world.select env (some ⟨1, 7⟩)).1 = .error .foreignNode := by
  intro env output h
  have henv : env.Apart := ⟨fun _ _ _ => rfl, fun _ _ => rfl, fun _ _ => rfl⟩
  have horderly : Orderly env h := run_orderly henv true [] _
  let node : Node :=
    { hash := 7, parent := none, kind := "", text := "", extent := "", startLine := 0, startColumn := 0
      endLine := 0, endColumn := 0, textLength := 0, properties := [], id := "" }
  have hread : Payload.read output = .ok ⟨[node], [], 0⟩ := calc
    Payload.read output = Payload.ofJson (.list [.object [("hashCode", .int 7)]]) := Payload.read_ofList (by cbv) (by cbv)
    _ = .ok ⟨[node], [], 0⟩ := by rfl
  have hview : ∀ w : World String (List Notice), w.view.isAnalyzing = false →
      (w.analyze env output none).2.view =
        w.view.replaced fun epoch => .ofPayload epoch none ⟨[node], [], 0⟩ := by
    intro w hidle
    refine (World.analyze_of_payload output none henv hidle ?_).2
    show World.payloadOf (.ok output) = _
    rw [World.payloadOf, hread, Except.mapError]
  have hselection : h.world.session.selection = some ⟨2, 7⟩ := by
    let first := (new true []).run env [.listen true "outline"]
    let second := (new true []).run env [.listen true "outline", .analyze output none]
    have hsecond : second.world.view = _ := hview first.world rfl
    have hidle : second.world.view.isAnalyzing = false := (run_kept henv (new_kept true []) _).1.view.idle
    have hlast : h.world.view = _ := hview second.world hidle
    refine (congrArg View.selection hlast).trans ?_
    rw [hsecond]
    cbv
  refine ⟨henv, horderly, hselection, (horderly.refused _).2 ⟨_, rfl, fun hstored => ?_⟩⟩
  have hepoch := hstored.1.trans (horderly.selection _ hselection).1.symm
  exact absurd hepoch (by decide)

end History
end Analysis
end ScriptTree
