import ScriptTree.Interpreter.Runner
import ScriptTree.Shell.Run
import ScriptTree.Text.Utf8

/-!
A shell that reads commands from its input line by line, and a runner that keeps such a shell for
many commands. The shell stands for the `/bin/sh` of a machine, which a session may be kept with in place
of PowerShell: it is no part of the program, whose own parts take any interpreter by what it prints.
-/

namespace ScriptTree.Shell

/-- The bytes of a text of another program. -/
def written (s : String) : Bytes :=
  (Text.Utf8.bytes s).map fun b => Char.ofNat b.toNat

/-- A shell and the lines that do not yet make a command. -/
structure Console where
  state : State
  waiting : Bytes

namespace Console

/-- A shell that has just started. -/
def start (name home : String) (users assigned : List (String × String)) (files : FileStore) :
    Console :=
  let writtenPairs := List.map fun (v : String × String) => (written v.1, written v.2)
  { state := .start name home (writtenPairs users) (writtenPairs assigned) files, waiting := [] }

/-- The greatest exit code and one. -/
def codes : Nat := 256

/-- Ends a shell that leaves its commands: what is to be done at its end is done. Gives the exit code,
or none if the shell goes on. -/
def leaving (leave : Leave) (s : State) : Option Int × State :=
  match leave with
  | .killed signal => (some (-(signal : Int)), s)
  | .breaking _ | .continuing _ | .sleeping => (none, s)
  | .exiting | .failing | .returning =>
    match endShell.run.run s with
    | (.error (.killed signal), s) => (some (-(signal : Int)), s)
    | (_, s) => (some (s.status % codes : Nat), s)

/-- Carries out the commands that are complete; `rounds` is at least the number of lines. -/
def carryOut : Nat → Console → Option Int × Console
  | 0, c => (none, c)
  | rounds + 1, c =>
    if c.waiting.isEmpty then (none, c)
    else
      match readLine c.state.aliases c.state.reading c.waiting with
      | .error .incomplete => (none, c)
      | .error stop =>
        let s := { c.state with line := c.state.reading }
        (some State.faulty, { c with state := s.complain stop.message })
      | .ok (items, rest) =>
        let lines := c.waiting.count '\n' - rest.count '\n'
        let (outcome, s) := (run items).run.run c.state
        let next (s : State) : Console :=
          { state := { s with reading := s.reading + lines }, waiting := rest }
        match outcome with
        | .ok _ => carryOut rounds (next s)
        | .error leave =>
          match leaving leave s with
          | (some code, s) => (some code, next s)
          | (none, s) => carryOut rounds (next s)

/-- What pieces, the last of which comes first, make together. -/
def joined (pieces : List Bytes) : List UInt8 :=
  pieces.reverse.flatten.map fun c => UInt8.ofNat c.toNat

/-- Writes to the input of the shell; what it prints, and the code it ends with, if it does. -/
def feed (c : Console) (text : Bytes) : Interpreter.Emission × Console :=
  let waiting := c.waiting ++ text
  let before := { c.state with output := [], errors := [] }
  let (exit, c) := carryOut (waiting.count '\n' + 1) { state := before, waiting }
  ({ stdout := joined c.state.output, stderr := joined c.state.errors, exit }, c)

end Console

/-- A runner with the shell that it keeps, and the shell that it starts. -/
structure Session where
  runner : Interpreter.Runner
  console : Console
  initial : Console

namespace Session

/-- A runner that has not started a shell. -/
def new (host : Interpreter.Host) (initial : Console) : Session :=
  { runner := .new .sh host, console := initial, initial }

/-- A shell that starts where the one before it left its files. -/
def restarted (s : Session) : Console :=
  let (last, first) := (s.console.state, s.initial.state)
  { s.initial with
    state := { first with files := last.files, executables := last.executables } }

/-- Runs a command in the shell that is kept, or in a new one if there is none. -/
def run (s : Session) (command : String) :
    Option (Except Interpreter.SessionError String) × Session :=
  let console := if s.runner.isRunning then s.console else s.restarted
  let (emission, console) := console.feed (written (s.runner.profile.wrap command))
  let host := { s.runner.host with replies := [emission] }
  let (outcome, runner) := { s.runner with host }.run command none
  (outcome.map fun o => (o.map String.ofList).mapError (·.toSessionError),
    { s with runner, console })

end Session
end ScriptTree.Shell
