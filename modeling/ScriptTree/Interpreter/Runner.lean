import ScriptTree.Interpreter.Lookup
import ScriptTree.Interpreter.Process

/-!
A runner keeps one interpreter process for many commands.

A command that finds no process starts one. A process that has ended without notice is found out
when the next command comes, one that cannot be written to is killed and the command is tried once
more on a new one, and one whose output ends is given up. Whichever way a process is lost, the
command in progress fails with the reason and those queued behind it fail too, so that no answer is
left open. Each process has its own transport: what a process says after it was given up reaches no
command of its successor.
-/

namespace ScriptTree.Interpreter

/-- Who does something: the caller of the runner, or the reader of a process's output. -/
inductive Actor where
  | caller
  | reader (process : Nat)
  deriving DecidableEq, Repr

/-- What a runner does to the world. -/
inductive Effect where
  | spawn (pid : Nat) (command : List String)
  | write (pid : Nat) (line : String)
  | kill (pid : Nat)
  | log (actor : Actor) (event : Log.Event)
  deriving DecidableEq, Repr

/-- The world of a runner: where executables are, the failures of the next starts, the executables
that are gone when they are started, what the inputs of the next processes do with a line, what
processes print when they next accept a line, and the time that starting a process takes. -/
structure Host where
  lookup : Lookup
  spawnFaults : List String
  gone : List String
  nextInputs : List Input
  replies : List Emission
  latency : Int
  /-- The number of starts that come before the failures. -/
  goodStarts : Nat := 0

namespace Host

/-- The failure that the next start meets whatever the command is. -/
def nextFault? (h : Host) : Option String :=
  if h.goodStarts = 0 then h.spawnFaults.head? else none

/-- Why the next start of a command fails, if it does: the kind of the failure and its wording. -/
def spawnFault? (h : Host) (command : List String) : Option (String × String) :=
  match h.nextFault? with
  | some fault => some ("OSError", fault)
  | none =>
    (command.head?.filter h.gone.contains).map fun executable =>
      (FileFault.missing.kind, FileFault.missing.message (Text.quoted executable))

/-- The world after a start was tried. -/
def afterStart (h : Host) : Host :=
  if h.goodStarts = 0 then { h with spawnFaults := h.spawnFaults.tail }
  else { h with goodStarts := h.goodStarts - 1 }

end Host

/-- A runner with its world. Processes are in the order of their start, and `current` is the place
of the one in use. `generation` grows with each start and with the disposal, so that a process
started earlier can be told from the one in use. -/
structure Runner where
  profile : Profile
  host : Host
  processes : List Process
  current : Option Nat
  generation : Nat
  isDisposed : Bool
  futures : Futures
  effects : List Effect

namespace Runner

/-- The first process id. -/
def firstPid : Nat := 1001

/-- A runner that has not started anything. -/
def new (profile : Profile) (host : Host) : Runner :=
  { profile, host, processes := [], current := none, generation := 0, isDisposed := false,
    futures := .empty, effects := [] }

/-- Whether there is a process in use. -/
def isRunning (r : Runner) : Bool :=
  r.current.isSome

/-- The process id of the process in use. -/
def pid? (r : Runner) : Option Nat :=
  r.current.bind fun i => r.processes[i]?.map (·.pid)

/-- The number of answers waited for. -/
def pendingCount (r : Runner) : Nat :=
  match r.processes.getLast? with
  | some p => p.transport.pending.length
  | none => 0

/-- Notes effects. -/
def act (r : Runner) (effects : List Effect) : Runner :=
  { r with effects := r.effects ++ effects }

/-- Changes a process. -/
def modify (r : Runner) (i : Nat) (f : Process → Process) : Runner :=
  { r with processes := r.processes.modify i f }

/-- Takes over a process's transport and what its change brought about. -/
def absorb (r : Runner) (i : Nat) (actor : Actor) (t : Transport) (c : Change) : Runner :=
  { r.modify i (fun p => { p with transport := t }) with
    futures := c.futures
    effects := r.effects ++ c.events.map (.log actor) }

/-- The message about a lost process. -/
def lostMessage (r : Runner) (exitCode : Option Int) (fault : Option String) : String :=
  match fault with
  | some reason => s!"{r.profile.displayName} stream error: {reason}"
  | none =>
    let code := match exitCode with
      | some code => Integer.text code
      | none => "None"
    s!"{r.profile.displayName} process exited unexpectedly with code {code}"

/-- The failure of everything asked of a runner that is disposed. -/
def disposedError (r : Runner) : SessionError :=
  .plain s!"{r.profile.displayName} runner is disposed"

/-- Gives a process up: the loss is noted, the text not yet used is forgotten, all answers waited
for fail, and the input is closed. `fault` tells what is wrong with the output if it did not simply
end. -/
def giveUp (r : Runner) (actor : Actor) (i : Nat) (exitCode : Option Int) (fault : Option String) :
    Runner :=
  match r.processes[i]? with
  | none => r
  | some p =>
    let message := r.lostMessage exitCode fault
    let kind := if fault.isSome then "OSError" else "ProcessExited"
    let r := r.act [.log actor (.sessionError r.profile.name message kind exitCode)]
    let (t, futures) := p.transport.clearBuffers.failOldest r.futures ⟨message, exitCode⟩
      ⟨s!"{r.profile.displayName} process exited before the command completed", exitCode⟩
    { r.modify i (fun p => ({ p with transport := t }).closeInput) with futures }

/-- Starts a process. One that has no sentinel is started all the same, but it is not kept, since
nothing can be asked of it. -/
def spawn (r : Runner) : Except RunnerError Nat × Runner :=
  match r.host.lookup.command r.profile.command r.profile.installHint with
  | .error e => (.error e, r)
  | .ok command =>
    match r.host.spawnFault? command with
    | some (kind, fault) =>
      let r := { r with host := r.host.afterStart }
      (.error (.plain s!"Failed to start {r.profile.displayName}: {fault}"),
        r.act [.log .caller (.sessionError r.profile.name fault kind none)])
    | none =>
      let pid := firstPid + r.generation
      let input := r.host.nextInputs.headD .accepts
      let r := ({ r with
        host := { r.host.afterStart with nextInputs := r.host.nextInputs.tail }
        generation := r.generation + 1 }).act [.spawn pid command]
      match Transport.new? r.profile with
      | none => (.error (.launch .emptySentinel), r)
      | some transport =>
        let i := r.processes.length
        let r := { r with
          processes := r.processes ++ [Process.start pid r.generation input transport]
          current := some i }
        (.ok i, r.act
          [.log .caller (.sessionStart r.profile.name command r.host.latency (some pid))])

/-- Starts the interpreter unless there is a process in use. -/
def start (r : Runner) : Except RunnerError Unit × Runner :=
  if r.isDisposed then (.error (.session r.disposedError), r)
  else if r.isRunning then (.ok (), r)
  else
    match r.spawn with
    | (.ok _, r) => (.ok (), r)
    | (.error e, r) => (.error e, r)

/-- A process to send a command to: the one in use if it has not ended, else a new one. -/
def ensureStarted (r : Runner) : Except RunnerError Nat × Runner :=
  match r.current with
  | none => r.spawn
  | some i =>
    match (r.processes[i]?).bind (·.exitCode) with
    | none => (.ok i, r)
    | some code => (({ r with current := none }).giveUp .caller i (some code) none).spawn

/-- The output of a process has ended, or reading it failed. The process is given up if it is the
one in use. -/
def outputClosed (r : Runner) (i : Nat) (fault : Option String) : Runner :=
  let r := r.modify i fun p => { p with isRead := false }
  let generation := (r.processes[i]?).map (·.generation)
  if generation = some r.generation && r.current = some i then
    let exitCode := (r.processes[i]?).bind (·.exitCode)
    ({ r with current := none }).giveUp (.reader i) i exitCode fault
  else r

/-- Output bytes of a process arrive. -/
def readOutput (r : Runner) (i : Nat) (bytes : List UInt8) : Runner :=
  match r.processes[i]? with
  | none => r
  | some p =>
    let (t, change) := p.transport.receiveOutput r.futures bytes
    r.absorb i (.reader i) t change

/-- The output of a process ends: what is left of it is used, and the process is given up. -/
def endOutput (r : Runner) (i : Nat) : Runner :=
  match r.processes[i]? with
  | none => r
  | some p =>
    let (t, change) := p.transport.endOutput r.futures
    (r.absorb i (.reader i) t change).outputClosed i none

/-- Error bytes of a process arrive. -/
def readErrors (r : Runner) (i : Nat) (bytes : List UInt8) : Runner :=
  r.modify i fun p => { p with transport := p.transport.receiveError bytes }

/-- A process perhaps ends. -/
def noteExit (r : Runner) (i : Nat) : Option Int → Runner
  | none => r
  | some code => r.modify i fun p => { p with exitCode := some code }

/-- A process prints, first on its error stream, and perhaps ends. Nothing is heard of a process
whose output is no longer read. -/
def emit (r : Runner) (i : Nat) (e : Emission) : Runner :=
  match r.processes[i]? with
  | none => r
  | some p =>
    if p.isRead then
      let r := (r.readErrors i e.stderr).readOutput i e.stdout
      if e.exit.isSome then (r.noteExit i e.exit).endOutput i else r
    else r.noteExit i e.exit

/-- Both streams of a process end while it goes on. -/
def closeOutput (r : Runner) (i : Nat) : Runner :=
  match r.processes[i]? with
  | none => r
  | some p => if p.isRead then r.endOutput i else r

/-- Reading the output of a process fails after a line break. -/
def failOutput (r : Runner) (i : Nat) (reason : String) : Runner :=
  match r.processes[i]? with
  | none => r
  | some p => if p.isRead then (r.readOutput i [0x0a]).outputClosed i (some reason) else r

/-- Kills a process. -/
def kill (r : Runner) (i : Nat) : Runner :=
  match r.processes[i]? with
  | none => r
  | some p => (r.modify i Process.kill).act [.kill p.pid]

/-- Kills a process that could not be written to and gives it up. -/
def discard (r : Runner) (i : Nat) : Runner :=
  if r.current = some i then
    let r := ({ r with current := none }).kill i
    r.giveUp .caller i ((r.processes[i]?).bind (·.exitCode)) none
  else r

/-- The process plays the next reply that waits for a process to accept a line. -/
def reply (r : Runner) (i : Nat) : Runner :=
  match r.host.replies with
  | [] => r
  | e :: replies => ({ r with host := { r.host with replies } }).emit i e

/-- Writes a command to a process. A line that is not taken costs the process. -/
def write (r : Runner) (i : Nat) (command : String) : Except SessionError Nat × Runner :=
  match r.processes[i]? with
  | none => (.error (Transport.notRunning r.profile), r)
  | some p =>
    let lines := (Transport.linesOut r.profile p.input command).map (Effect.write p.pid)
    match p.transport.send r.futures p.input with
    | .ok (t, futures, future) =>
      let r := { r.modify i (fun p => { p with transport := t }) with futures }
      (.ok future, (r.act lines).reply i)
    | .error e => (.error e, (r.act lines).discard i)

/-- An answer that has failed already. -/
def failed (r : Runner) (e : SessionError) : Nat × Runner :=
  let (futures, i) := r.futures.add (.failed e)
  (i, { r with futures })

/-- An answer that fails, which is noted. -/
def refuse (r : Runner) (e : SessionError) : Nat × Runner :=
  (r.act [.log .caller (.invokeError r.profile.name e.message "SessionError")]).failed e

/-- Sends a command once. An error of the session means that the line was not taken. -/
def send (r : Runner) (command : String) : Except RunnerError Nat × Runner :=
  if r.isDisposed then
    let (i, r) := r.failed r.disposedError
    (.ok i, r)
  else
    match r.ensureStarted with
    | (.error (.session e), r) =>
      let (i, r) := r.refuse e
      (.ok i, r)
    | (.error (.launch f), r) => (.error (.launch f), r)
    | (.ok i, r) =>
      let (sent, r) := r.write i command
      (sent.mapError .session, r)

/-- Sends a command and names the answer to wait for. A line that is not taken is written once
more, to a new process. There is no answer to wait for if no session can come about. -/
def invoke (r : Runner) (command : String) : Except LaunchFault Nat × Runner :=
  match r.send command with
  | (.ok i, r) => (.ok i, r)
  | (.error (.launch f), r) => (.error f, r)
  | (.error (.session _), r) =>
    match r.send command with
    | (.ok i, r) => (.ok i, r)
    | (.error (.launch f), r) => (.error f, r)
    | (.error (.session e), r) =>
      let (i, r) := r.refuse e
      (.ok i, r)

/-- Gives an answer up. -/
def cancel (r : Runner) (future : Nat) : Bool × Runner :=
  let (futures, done) := r.futures.cancel future
  (done, { r with futures })

/-- Waits for an answer that is not there yet, at most for the given time, which runs out: the answer is
given up. A wait that the machine cannot time is not begun, and the answer stays open. -/
def outwait (r : Runner) (future : Nat) (limit : TimeLimit) : RunError × Runner :=
  if limit.isOverlong then (.overlong limit, r)
  else
    let (_, r) := r.cancel future
    let reason := s!"timed out after {limit.text}s"
    let r := r.act [.log .caller (.invokeError r.profile.name reason "TimeoutError")]
    (.plain s!"{r.profile.displayName} command {reason}", r)

/-- Waits for an answer, at most for the given time. There is no result where the answer never comes and
no limit was set. -/
def await (r : Runner) (future : Nat) (timeout : Option TimeLimit) :
    Option (Except RunError (List Char)) × Runner :=
  match r.futures.get future with
  | .done value => (some (.ok value), r)
  | .failed e => (some (.error (.runner (.session e))), r)
  | .cancelled =>
    (some (.error (.plain s!"{r.profile.displayName} command was cancelled")), r)
  | .pending =>
    match timeout with
    | none => (none, r)
    | some limit =>
      let (e, r) := r.outwait future limit
      (some (.error e), r)

/-- Sends a command and waits for its answer. -/
def run (r : Runner) (command : String) (timeout : Option TimeLimit) :
    Option (Except RunError (List Char)) × Runner :=
  match r.invoke command with
  | (.error f, r) => (some (.error (.runner (.launch f))), r)
  | (.ok i, r) => r.await i timeout

/-- Fails the answers that the newest process owes and forgets its texts. -/
def abandon (r : Runner) : Runner :=
  match r.processes.getLast? with
  | none => r
  | some p =>
    let (t, futures) := p.transport.failAll r.futures r.disposedError
    { r.modify (r.processes.length - 1) (fun p => { p with transport := t.clearBuffers }) with
      futures }

/-- Ends the interpreter for good. -/
def dispose (r : Runner) : Runner :=
  let first := !r.isDisposed
  let current := r.current
  let r := ({ r with
    isDisposed := true, current := none, generation := r.generation + 1 }).abandon
  let r := match current with
    | some i => (r.kill i).modify i Process.closeInput
    | none => r
  if first then r.act [.log .caller (.sessionStop r.profile.name "disposed")] else r

end Runner
end ScriptTree.Interpreter
