/-
What an analysis returns and reports while its listeners act on the session. Both are read back from the session
after the listeners were told of the new selection: they are those of the forest of the analysis where no listener
has replaced the snapshot, and those of the last snapshot that replaced it otherwise (`analyze_completes`).
-/
import ScriptTree.Proofs.Analysis.Payload
import ScriptTree.Proofs.Analysis.Reference

namespace ScriptTree.Analysis.World

variable {ι ω : Type}

/-! ## The end of an analysis -/

/-- The event that reports a snapshot. -/
def completion (env : Surroundings ι ω) (source : Option String) (s : Snapshot) : Log.Event :=
  .analysisComplete source s.epoch s.forest.size s.errors.length s.forest.orphans.length env.latency

section

variable (env : Surroundings ι ω) (text : String) (source : Option String) (w : World ι ω) (p : Payload)

/-- The world as the parser service leaves it. -/
def served : World ι ω :=
  (env.serve text (w.openAnalysis env)).2

/-- The world with the forest of the payload, before the listeners are told. -/
def filled : World ι ω :=
  (w.served env text).installed fun epoch => .ofPayload epoch source p

/-- The world after the listeners were told. -/
def told : World ι ω :=
  (w.served env text).replaceSnapshot env fun epoch => .ofPayload epoch source p

/-- The payload is what the parser service returned. -/
def Outputs : Prop :=
  ∃ raw, (env.serve text (w.openAnalysis env)).1 = .ok raw ∧ Payload.read raw = .ok p

/-- What a successful analysis returns and reports is the forest of its own output. -/
def ReturnsOwn : Prop :=
  ∀ roots, (w.analyze env text source).1 = .ok roots →
    ∃ p, w.Outputs env text p ∧ roots = (Forest.build p.nodes).roots ∧
      (w.analyze env text source).2 =
        (env.note (.event (completion env source (.ofPayload ((w.served env text).snapshot.epoch + 1) source p)))
          (w.told env text source p)).setAnalyzing env false

/-- What a successful analysis of the payload comes to, where the listeners have made the changes. -/
structure Completes (quiet : Prop) (roots : List Tree) (cs : List (Change ι ω)) : Prop where
  output : w.Outputs env text p
  changes : w.told env text source p = (w.filled env text source p).after cs
  /-- The roots are those of the snapshot that the listeners leave. -/
  returned : roots = (w.told env text source p).snapshot.forest.roots
  /-- And it is this snapshot that is reported. -/
  reported : (w.analyze env text source).2 =
    (env.note (.event (completion env source (w.told env text source p).snapshot))
      (w.told env text source p)).setAnalyzing env false
  /-- The snapshot is that of the analysis if no listener has replaced it. -/
  undisturbed : replacedBy cs = 0 →
    (w.told env text source p).snapshot = .ofPayload ((w.served env text).snapshot.epoch + 1) source p
  /-- The report is that of the analysis only then. -/
  own_iff : completion env source (w.told env text source p).snapshot =
      completion env source (.ofPayload ((w.served env text).snapshot.epoch + 1) source p) ↔ replacedBy cs = 0
  calm : quiet → replacedBy cs = 0

end

variable {env : Surroundings ι ω} {text : String} {source : Option String} {w : World ι ω}

theorem payloadOf_ok {outcome : Except Failure String} {p : Payload} (h : payloadOf outcome = .ok p) :
    ∃ raw, outcome = .ok raw ∧ Payload.read raw = .ok p := by
  cases outcome with
  | error f => cases h
  | ok raw =>
    refine ⟨raw, rfl, ?_⟩
    unfold payloadOf at h
    dsimp only at h
    cases hread : Payload.read raw with
    | error r =>
      rw [hread] at h
      cases h
    | ok q =>
      rw [hread] at h
      cases h
      rfl

theorem analyze_eq_finish (source : Option String) (hidle : w.session.isAnalyzing = false) {p : Payload}
    (hp : w.Outputs env text p) :
    w.analyze env text source = (.ok (w.told env text source p).snapshot.forest.roots,
      (env.note (.event (completion env source (w.told env text source p).snapshot))
        (w.told env text source p)).setAnalyzing env false) := by
  obtain ⟨raw, hraw, hread⟩ := hp
  have hpayload : payloadOf (env.serve text (w.openAnalysis env)).1 = .ok p := by
    rw [hraw, payloadOf, hread, Except.mapError]
  rw [analyze_eq text source hidle]
  unfold settleAnalysis
  simp only [hpayload]
  rfl

/-- An analysis that returns roots was not refused, and its output was read. -/
theorem analyze_ok {roots : List Tree} (h : (w.analyze env text source).1 = .ok roots) :
    w.session.isAnalyzing = false ∧ ∃ p, w.Outputs env text p := by
  unfold analyze at h
  split at h
  · cases h
  · rename_i hbusy
    refine ⟨Bool.eq_false_iff.2 hbusy, ?_⟩
    dsimp only at h
    unfold settleAnalysis at h
    split at h
    · rename_i p hp
      exact ⟨p, payloadOf_ok hp⟩
    · split at h <;> cases h

/-- The changes that the listeners make when they are told of the new selection. -/
theorem told_amounts {quiet : Prop} (henv : env.ActsBy quiet) (text : String) (source : Option String)
    (w : World ι ω) (p : Payload) :
    Amounts quiet 0 (w.filled env text source p) (w.told env text source p) :=
  fire_amounts henv _ _ _

/-- Only the report of the same epoch is the same. -/
theorem completion_eq_iff {s s' : Snapshot} {n : Nat} (hepoch : s.epoch = s'.epoch + n) (hsame : n = 0 → s = s') :
    completion env source s = completion env source s' ↔ n = 0 := by
  constructor
  · intro heq
    unfold completion at heq
    simp only [Log.Event.analysisComplete.injEq, hepoch] at heq
    omega
  · intro hzero
    rw [hsame hzero]

/-- Every successful analysis returns and reports the snapshot that its listeners leave: its own one if they
have replaced none, and the report of another snapshot, of a later epoch, if they have. -/
theorem analyze_completes {quiet : Prop} (henv : env.ActsBy quiet) {roots : List Tree}
    (h : (w.analyze env text source).1 = .ok roots) :
    ∃ p cs, w.Completes env text source p quiet roots cs ∧ (replacedBy cs = 0 → w.ReturnsOwn env text source) := by
  obtain ⟨hidle, p, hp⟩ := analyze_ok h
  obtain ⟨cs, hcs, -, hquiet⟩ := told_amounts henv text source w p
  have hanalyze := analyze_eq_finish source hidle hp
  have hundisturbed : replacedBy cs = 0 →
      (w.told env text source p).snapshot = .ofPayload ((w.served env text).snapshot.epoch + 1) source p := by
    intro hzero
    rw [hcs, after_snapshot _ hzero]
    rfl
  have hepoch : (w.told env text source p).snapshot.epoch =
      (w.served env text).snapshot.epoch + 1 + replacedBy cs := by
    rw [hcs, after_epoch]
    rfl
  refine ⟨p, cs, ⟨hp, hcs, ?_, congrArg Prod.snd hanalyze, hundisturbed, ?_, hquiet⟩, fun hzero roots' h' => ?_⟩
  · rw [hanalyze] at h
    exact (Except.ok.inj h).symm
  · exact completion_eq_iff hepoch hundisturbed
  · refine ⟨p, hp, ?_, ?_⟩
    · rw [hanalyze, hundisturbed hzero] at h'
      exact (Except.ok.inj h').symm
    · rw [hanalyze, hundisturbed hzero]

/-- The payload of one node with nothing but a hash. -/
def lone (hash : Int) : Payload :=
  { nodes :=
      [{ hash, parent := none, kind := "", text := "", extent := "", startLine := 0, startColumn := 0
         endLine := 0, endColumn := 0, textLength := 0, properties := [], id := "" }]
    errors := [], skipped := 0 }

theorem read_lone : Payload.read "[\x7b\"hashCode\":7\x7d]" = .ok (lone 7) := calc
  Payload.read "[\x7b\"hashCode\":7\x7d]" = Payload.ofJson (.list [.object [("hashCode", .int 7)]]) :=
    Payload.read_ofList (by cbv) (by cbv)
  _ = .ok (lone 7) := by rfl

/-- A listener that selects nothing as soon as the root is selected: the root is returned and reported. -/
theorem analyze_completes_deselected :
    let still : Surroundings String Unit :=
      { notify := fun _ _ w => w, serve := fun text w => (.ok text, w), note := fun _ w => w
        release := id, latency := 0 }
    let env := { still with
      notify := fun _ notice w => if notice = .selection none then w else (w.select still none).2 }
    let w : World String Unit :=
      ⟨{ Session.new true with selectionListeners := ⟨1, [(0, "deselecting")]⟩ }, ()⟩
    let raw := "[\x7b\"hashCode\":7\x7d]"
    env.ActsBy True ∧ (∃ roots, (w.analyze env raw none).1 = .ok roots ∧ roots = (Forest.build (lone 7).nodes).roots) ∧
      w.ReturnsOwn env raw none := by
  intro still env w raw
  have hstill : still.ActsBy True :=
    ⟨fun _ _ w => .refl True w, fun _ w => .refl True w, fun _ w => .refl True w⟩
  have henv : env.ActsBy True := by
    refine ⟨fun _ notice w => ?_, fun _ w => .refl True w, fun _ w => .refl True w⟩
    show Amounts True 0 w (if notice = _ then _ else _)
    split
    · exact .refl True w
    · exact select_amounts hstill none w
  have houtput : w.Outputs env raw (lone 7) := ⟨raw, rfl, read_lone⟩
  have hresult := congrArg Prod.fst (analyze_eq_finish none rfl houtput)
  obtain ⟨p, cs, hcompletes, hown⟩ := analyze_completes henv hresult
  have hreturns := hown (hcompletes.calm trivial)
  refine ⟨henv, ⟨_, hresult, ?_⟩, hreturns⟩
  obtain ⟨q, ⟨raw', hraw, hread⟩, hroots, -⟩ := hreturns _ hresult
  cases hraw
  rw [read_lone] at hread
  cases hread
  exact hroots

/-- A listener that drops the analysis as soon as its root is selected: no root is returned, and no node is
reported, under the epoch of the empty snapshot. -/
theorem not_returnsOwn_cleared :
    let still : Surroundings String (List Log.Event) :=
      { notify := fun _ _ w => w, serve := fun text w => (.ok text, w), note := fun _ w => w
        release := id, latency := 0 }
    let env := { still with
      notify := fun _ notice w => if notice = .selection (some ⟨1, 7⟩) then w.clear still else w
      note := fun note w => match note with
        | .event e => { w with rest := e :: w.rest }
        | .operation _ => w }
    let w : World String (List Log.Event) :=
      ⟨{ Session.new true with selectionListeners := ⟨1, [(0, "clearing")]⟩ }, []⟩
    let raw := "[\x7b\"hashCode\":7\x7d]"
    (w.analyze env raw none).1 = .ok [] ∧
      (w.analyze env raw none).2.rest = [.analysisComplete none 2 0 0 0 0] ∧ ¬ w.ReturnsOwn env raw none := by
  intro still env w raw
  have houtput : w.Outputs env raw (lone 7) := ⟨raw, rfl, read_lone⟩
  have hended := analyze_eq_finish none rfl houtput
  have hsnapshot : (w.told env raw none (lone 7)).snapshot = .blank 2 := by cbv
  have hrest : (w.told env raw none (lone 7)).rest = [] := by cbv
  have hresult : (w.analyze env raw none).1 = .ok [] := by
    rw [hended, hsnapshot]
    rfl
  refine ⟨hresult, ?_, fun hown => ?_⟩
  · rw [hended, hsnapshot]
    cbv
  · obtain ⟨p, ⟨raw', hraw, hread⟩, hroots, -⟩ := hown _ hresult
    cases hraw
    rw [read_lone] at hread
    cases hread
    have hlone : ((Forest.build (lone 7).nodes).roots.map Tree.hash) = [7] := by cbv
    rw [← hroots] at hlone
    cases hlone

end ScriptTree.Analysis.World
