import ScriptTree.Interpreter.Future
import ScriptTree.Interpreter.Response
import ScriptTree.Interpreter.Sentinel
import ScriptTree.Log.Event
import ScriptTree.Text.Utf8

/-!
Commands to one interpreter process and their answers.

Commands are answered in the order in which they were sent: each waits in a queue, and the sentinel
that the process prints next answers the first in the queue. What the process wrote to its error
stream since the sentinel before belongs to the same answer: it is a failure if there is no output
beside it, and is otherwise noted in the log. An answer that was given up keeps its place in the
queue, so that its output is dropped and never reaches another command.
-/

namespace ScriptTree.Interpreter

/-- The transport of one process: the output and error text not yet used, the characters begun on
either stream, and the answers waited for, the oldest first. -/
structure Transport where
  profile : Profile
  stdout : SentinelBuffer
  stderr : List Char
  outDecoder : Text.Utf8.State
  errDecoder : Text.Utf8.State
  pending : List Nat

/-- A response and the error text that belongs to it, for the answer with the given name. -/
structure Completion where
  future : Nat
  body : List Char
  stderr : List Char
  deriving DecidableEq, Repr

/-- What the input of a process does with a line. -/
inductive Input where
  /-- The line is accepted. -/
  | accepts
  /-- The line is not taken. -/
  | refuses (reason : String)
  /-- The line is taken but not passed on. -/
  | loses (reason : String)
  /-- There is no input. -/
  | absent
  deriving DecidableEq, Repr

/-- The answers after a change, and the events to be noted. -/
structure Change where
  futures : Futures
  events : List Log.Event
  deriving Repr

namespace Transport

/-- The transport of a new process; an empty sentinel has none. -/
def new? (profile : Profile) : Option Transport :=
  (SentinelBuffer.new? profile.sentinel).map fun stdout =>
    { profile, stdout, stderr := [], outDecoder := .start, errDecoder := .start, pending := [] }

/-- Forgets the output and the error text not yet used. -/
def clearBuffers (t : Transport) : Transport :=
  { t with stdout := t.stdout.clear, stderr := [] }

/-- Gives the responses to the answers waited for, one each. The error text goes with the first
response; a response that nobody waits for is dropped with its error text. -/
def assign : List Nat → List Char → List (List Char) → List Completion × List Nat
  | pending, _, [] => ([], pending)
  | [], _, _ :: _ => ([], [])
  | f :: pending, stderr, body :: bodies =>
    let (done, pending) := assign pending [] bodies
    ({ future := f, body, stderr } :: done, pending)

/-- Takes output text in: the responses it completes, and the transport after that. -/
def takeOutput (t : Transport) (text : List Char) : List Completion × Transport :=
  let (bodies, stdout) := (t.stdout.append text).takeAll
  let (done, pending) := assign t.pending t.stderr bodies
  (done, { t with stdout, pending, stderr := if bodies.isEmpty then t.stderr else [] })

/-- How a response settles its answer, and the event for error text beside an output. -/
def conclude (p : Profile) (c : Completion) : Outcome × List Log.Event :=
  let output := normalize c.body
  let errors := normalize c.stderr
  if !errors.isEmpty && output.isEmpty then (.failed (.plain (String.ofList errors)), [])
  else
    (.done output,
      if errors.isEmpty then []
      else [.stderrDiscarded p.name (String.ofList errors) output.length])

/-- Settles the answers of some responses. -/
def completeAll (p : Profile) (fs : Futures) : List Completion → Change
  | [] => ⟨fs, []⟩
  | c :: cs =>
    let (outcome, events) := conclude p c
    let rest := completeAll p (fs.settle c.future outcome) cs
    { rest with events := events ++ rest.events }

/-- Output text arrives. -/
def feedOutput (t : Transport) (fs : Futures) (text : List Char) : Transport × Change :=
  let (done, t) := t.takeOutput text
  (t, completeAll t.profile fs done)

/-- Error text arrives. -/
def feedError (t : Transport) (text : List Char) : Transport :=
  { t with stderr := t.stderr ++ text }

/-- The text of some output bytes, with what was left of the bytes before them. -/
def decodeOutput (t : Transport) (bytes : List UInt8) : List Char × Transport :=
  let (state, pieces) := Text.Utf8.run t.outDecoder bytes
  (pieces.map Text.Utf8.Piece.toChar, { t with outDecoder := state })

/-- The text of a character begun when the output ends. -/
def flushOutput (t : Transport) : List Char × Transport :=
  ((Text.Utf8.finish t.outDecoder).map Text.Utf8.Piece.toChar, { t with outDecoder := .start })

/-- Output bytes arrive. -/
def receiveOutput (t : Transport) (fs : Futures) (bytes : List UInt8) : Transport × Change :=
  let (text, t) := t.decodeOutput bytes
  t.feedOutput fs text

/-- Error bytes arrive. -/
def receiveError (t : Transport) (bytes : List UInt8) : Transport :=
  let (state, pieces) := Text.Utf8.run t.errDecoder bytes
  ({ t with errDecoder := state }).feedError (pieces.map Text.Utf8.Piece.toChar)

/-- The output ends; a character begun is replaced. -/
def endOutput (t : Transport) (fs : Futures) : Transport × Change :=
  let (text, t) := t.flushOutput
  t.feedOutput fs text

/-- The error stream ends; a character begun is dropped. -/
def endError (t : Transport) : Transport :=
  { t with errDecoder := .start }

/-- Pieces of output arrive one after the other. -/
def receivePieces (t : Transport) (fs : Futures) : List (List UInt8) → Transport × Change
  | [] => (t, ⟨fs, []⟩)
  | piece :: pieces =>
    let (t, first) := t.receiveOutput fs piece
    let (t, rest) := t.receivePieces first.futures pieces
    (t, { rest with events := first.events ++ rest.events })

/-- A whole output is read, in the given pieces, up to its end. -/
def readOutput (t : Transport) (fs : Futures) (pieces : List (List UInt8)) : Transport × Change :=
  let (t, first) := ({ t with outDecoder := .start }).receivePieces fs pieces
  let (t, last) := t.endOutput first.futures
  (t, { last with events := first.events ++ last.events })

/-- A whole error stream is read, in the given pieces, up to its end. -/
def drainError (t : Transport) (pieces : List (List UInt8)) : Transport :=
  (pieces.foldl receiveError { t with errDecoder := .start }).endError

/-- The failure of a command that could not be written. -/
def notRunning (p : Profile) : SessionError :=
  .plain s!"{p.displayName} is not running"

/-- The failure of a command whose line was not taken. -/
def inputClosed (p : Profile) (reason : String) : SessionError :=
  .plain s!"{p.displayName} stdin closed: {reason}"

/-- Whether a process with the given input takes a line. A refused line leaves no answer in the
queue. -/
def writeFault? (p : Profile) : Input → Option SessionError
  | .accepts => none
  | .refuses reason => some (inputClosed p reason)
  | .loses reason => some (inputClosed p reason)
  | .absent => some (notRunning p)

/-- The lines that go out to a process with the given input when a command is sent. -/
def linesOut (p : Profile) (input : Input) (command : String) : List String :=
  match input with
  | .accepts => [p.wrap command]
  | .loses _ => [p.wrap command]
  | .refuses _ => []
  | .absent => []

/-- Puts an answer at the end of the queue. -/
def enqueue (t : Transport) (future : Nat) : Transport :=
  { t with pending := t.pending ++ [future] }

/-- Sends a command to a process with the given input. If the line is taken there is a new answer
to wait for. -/
def send (t : Transport) (fs : Futures) (input : Input) :
    Except SessionError (Transport × Futures × Nat) :=
  match writeFault? t.profile input with
  | some e => .error e
  | none =>
    let (fs, i) := fs.add .pending
    .ok (t.enqueue i, fs, i)

/-- Fails all answers waited for. -/
def failAll (t : Transport) (fs : Futures) (e : SessionError) : Transport × Futures :=
  ({ t with pending := [] }, fs.settleAll t.pending (.failed e))

/-- Fails the oldest answer waited for in one way and the others in another. -/
def failOldest (t : Transport) (fs : Futures) (first rest : SessionError) : Transport × Futures :=
  match t.pending with
  | [] => (t, fs)
  | i :: is => ({ t with pending := [] }, (fs.settle i (.failed first)).settleAll is (.failed rest))

end Transport
end ScriptTree.Interpreter
