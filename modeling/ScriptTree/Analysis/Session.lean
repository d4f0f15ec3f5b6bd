import ScriptTree.Analysis.Emitter
import ScriptTree.Analysis.Payload
import ScriptTree.File.Document
import ScriptTree.Log.Event
import ScriptTree.Tree.Level
import ScriptTree.Tree.Locate

/-!
The current analysis of one script, the node selected in it, and those who watch both.

The result of an analysis is a snapshot that is replaced as a whole and never changed. Each
snapshot has its own epoch, so that a node is known by the epoch in which its tree was built
together with its hash: a node of an earlier analysis is not one of the current analysis, even if
their hashes agree.

Listeners run while an operation is going on and may use the session themselves, as may the parser
service. An operation therefore acts on a world that holds the session beside everything else, and
goes on with the session as it finds it after each call.
-/

namespace ScriptTree.Analysis

/-- A node of an analysis: the epoch of the analysis, and the node's hash. The snapshot that a
session begins with has epoch zero and no nodes, so epoch zero stands for a node of no analysis. -/
structure NodeKey where
  epoch : Nat
  hash : Int
  deriving DecidableEq, Repr

/-- All that one analysis produced. -/
structure Snapshot where
  epoch : Nat
  source : Option String
  forest : Forest
  errors : List SyntaxError

namespace Snapshot

/-- The snapshot of an epoch without any analysis. -/
def blank (epoch : Nat) : Snapshot :=
  { epoch, source := none, forest := .empty, errors := [] }

/-- The snapshot of an analysis. -/
def ofPayload (epoch : Nat) (source : Option String) (p : Payload) : Snapshot :=
  { epoch, source, forest := .build p.nodes, errors := p.errors }

/-- The tree of a hash. -/
def find? (s : Snapshot) (hash : Int) : Option Tree :=
  s.forest.find? hash

/-- The tree of a node, if the node is of this analysis. -/
def resolve? (s : Snapshot) (key : NodeKey) : Option Tree :=
  if key.epoch = s.epoch then s.find? key.hash else none

/-- Whether a node is of this analysis. -/
def owns (s : Snapshot) (key : NodeKey) : Bool :=
  (s.resolve? key).isSome

/-- The node of a tree of this analysis. -/
def key (s : Snapshot) (t : Tree) : NodeKey :=
  { epoch := s.epoch, hash := t.hash }

end Snapshot

/-- The state of a session. `ι` is the type of listeners. -/
structure Session (ι : Type) where
  /-- Whether an analysis selects the first root. -/
  selectsRoot : Bool
  snapshot : Snapshot
  selection : Option NodeKey
  isAnalyzing : Bool
  selectionListeners : Emitter ι
  analyzingListeners : Emitter ι

/-- What listeners are told: the node selected now, or whether an analysis is running. -/
inductive Notice where
  | selection (node : Option NodeKey)
  | analyzing (running : Bool)
  deriving DecidableEq, Repr

/-- What is written down about a session: the operation that begins, or an event. -/
inductive Note where
  | operation (name : String)
  | event (e : Log.Event)
  deriving DecidableEq, Repr

/-- A session and everything else. -/
structure World (ι ω : Type) where
  session : Session ι
  rest : ω

/-- What surrounds a session: how a listener takes a notice, the parser service, what becomes of
notes, how the service is given back, and the time that an analysis is said to take. -/
structure Surroundings (ι ω : Type) where
  notify : ι → Notice → World ι ω → World ι ω
  serve : String → World ι ω → Except Failure String × World ι ω
  note : Note → World ι ω → World ι ω
  release : World ι ω → World ι ω
  latency : Int

/-- A session before any analysis. -/
def Session.new {ι : Type} (selectsRoot : Bool) : Session ι :=
  { selectsRoot, snapshot := .blank 0, selection := none, isAnalyzing := false
    selectionListeners := .empty, analyzingListeners := .empty }

namespace World

variable {ι ω : Type}

/-- Changes the session. -/
def update (w : World ι ω) (f : Session ι → Session ι) : World ι ω :=
  { w with session := f w.session }

/-- The current snapshot. -/
def snapshot (w : World ι ω) : Snapshot :=
  w.session.snapshot

/-- Tells the listeners which node is selected. -/
def announceSelection (env : Surroundings ι ω) (node : Option NodeKey) (w : World ι ω) :
    World ι ω :=
  w.session.selectionListeners.fire env.notify (.selection node) w

/-- Tells the listeners whether an analysis is running. -/
def announceAnalyzing (env : Surroundings ι ω) (running : Bool) (w : World ι ω) : World ι ω :=
  w.session.analyzingListeners.fire env.notify (.analyzing running) w

/-- Marks whether an analysis is running, and tells the listeners. -/
def setAnalyzing (env : Surroundings ι ω) (running : Bool) (w : World ι ω) : World ι ω :=
  (w.update fun s => { s with isAnalyzing := running }).announceAnalyzing env running

/-- The node selected after a snapshot comes: its first root, if roots are to be selected. -/
def firstSelection (selectsRoot : Bool) (s : Snapshot) : Option NodeKey :=
  if selectsRoot then s.forest.roots.head?.map s.key else none

/-- Replaces the snapshot by one of the next epoch, and tells the listeners of the selection. -/
def replaceSnapshot (env : Surroundings ι ω) (make : Nat → Snapshot) (w : World ι ω) :
    World ι ω :=
  let next := make (w.snapshot.epoch + 1)
  let selection := firstSelection w.session.selectsRoot next
  (w.update fun s => { s with snapshot := next, selection }).announceSelection env selection

/-- Ends an analysis that failed in one of its stages. -/
def failAnalysis (env : Surroundings ι ω) (source : Option String) (e : StageError)
    (w : World ι ω) : World ι ω :=
  let w := env.note (.event (.analysisError source e.stage e.message env.latency)) w
  w.replaceSnapshot env .blank

/-- Ends an analysis that succeeded. What is reported and returned is the snapshot as it is after
the listeners were told. -/
def finishAnalysis (env : Surroundings ι ω) (source : Option String) (p : Payload)
    (w : World ι ω) : List Tree × World ι ω :=
  let w := w.replaceSnapshot env fun epoch => .ofPayload epoch source p
  let s := w.snapshot
  let event := Log.Event.analysisComplete source s.epoch s.forest.size s.errors.length
    s.forest.orphans.length env.latency
  (s.forest.roots, env.note (.event event) w)

/-- The payload of what the parser service returns. -/
def payloadOf (outcome : Except Failure String) : Except Failure Payload :=
  match outcome with
  | .error f => .error f
  | .ok raw => (Payload.read raw).mapError Payload.Refusal.failure

/-- Begins an analysis: the listeners are told, and the operation is noted. -/
def openAnalysis (env : Surroundings ι ω) (w : World ι ω) : World ι ω :=
  env.note (.operation "analyze") (w.setAnalyzing env true)

/-- Settles an analysis by what the parser service returned. A failure of a stage leaves an empty
snapshot, any other failure the snapshot that was there. -/
def settleAnalysis (env : Surroundings ι ω) (source : Option String)
    (outcome : Except Failure String) (w : World ι ω) : Except Failure (List Tree) × World ι ω :=
  match payloadOf outcome with
  | .ok p =>
    let (roots, w) := w.finishAnalysis env source p
    (.ok roots, w)
  | .error f =>
    match f.stage? with
    | some e => (.error f, w.failAnalysis env source e)
    | none => (.error f, w)

/-- Analyses a text. Whatever happens, the end of the analysis is announced. -/
def analyze (env : Surroundings ι ω) (text : String) (source : Option String) (w : World ι ω) :
    Except Failure (List Tree) × World ι ω :=
  if w.session.isAnalyzing then (.error .inProgress, w)
  else
    let (outcome, w) := env.serve text (w.openAnalysis env)
    let (result, w) := w.settleAnalysis env source outcome
    (result, w.setAnalyzing env false)

/-- The error of a script that cannot be read. -/
def unreadable (p : Path) (fault : DocumentFault) : StageError :=
  { stage := startStage, message := s!"Cannot read file {p.text}: {fault.message p}" }

/-- Analyses the file at a path. `home` is the text of the working directory. -/
def analyzeFile (env : Surroundings ι ω) (files : FileStore) (home : String) (p : Path)
    (w : World ι ω) : Except Failure (List Tree) × World ι ω :=
  match files.readText p with
  | .error (.file .nullCharacter) => (.error .nullCharacter, w)
  | .error fault => (.error (.stage (unreadable p fault)), w)
  | .ok text => w.analyze env text (some (p.absolute home))

/-- Drops the analysis and the selection. -/
def clear (env : Surroundings ι ω) (w : World ι ω) : World ι ω :=
  w.replaceSnapshot env .blank

/-- The innermost node around a place of the current analysis. -/
def locate (w : World ι ω) (line column : Int) : Option Tree :=
  w.snapshot.forest.locate line column

/-- Selects a node of the current analysis, or none. -/
def select (env : Surroundings ι ω) (node : Option NodeKey) (w : World ι ω) :
    Except Failure Unit × World ι ω :=
  if node.all w.snapshot.owns then
    (.ok (), (w.update fun s => { s with selection := node }).announceSelection env node)
  else (.error .foreignNode, w)

/-- Selects the innermost node around a place. Where there is none the selection stays. -/
def selectAt (env : Surroundings ι ω) (line column : Int) (w : World ι ω) :
    Except Failure (Option Tree) × World ι ω :=
  match w.locate line column with
  | none => (.ok none, w)
  | some t =>
    match w.select env (some (w.snapshot.key t)) with
    | (.ok _, w) => (.ok (some t), w)
    | (.error f, w) => (.error f, w)

/-- A lasting reference to a node of the current analysis. -/
def ref (w : World ι ω) (node : NodeKey) : Except Failure NodeKey :=
  if w.snapshot.owns node then .ok { epoch := w.snapshot.epoch, hash := node.hash }
  else .error .foreignNode

/-- The tree that a reference leads to, as long as its analysis is the current one. -/
def resolve (w : World ι ω) (node : NodeKey) : Option Tree :=
  w.snapshot.resolve? node

/-- The pause after each node revealed unless another is set: a hundredth of a second. -/
def standardDelay : Binary64 :=
  Binary64.ofDecimal false 1 (-2)

/-- Reveals all trees with children of the analysis that is current when it begins. -/
def expandAll {ε : Type} (revealer : Forest.Revealer ε (World ι ω)) (delay : Option Binary64)
    (w : World ι ω) : Nat × World ι ω :=
  w.snapshot.forest.expand revealer (delay.getD standardDelay) w

/-- Gives the parser service back. -/
def close (env : Surroundings ι ω) (w : World ι ω) : World ι ω :=
  env.release w

end World
end ScriptTree.Analysis
