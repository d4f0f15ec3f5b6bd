/-
A transport over a whole run: the commands sent, the output and error text that comes in, and the
answers given up or failed from outside, in any order. Feeding output in parts is feeding it whole:
neither the decoder nor the buffer shows where a part ended, and the error text goes with the first
response wherever the cut is. So two runs that differ only in how the output bytes were cut end in
one and the same state, with the same answers settled in the same order.
-/
import ScriptTree.Proofs.Interpreter.Queue
import ScriptTree.Proofs.Interpreter.Sentinel

namespace ScriptTree.Interpreter

/-! ## The run of a transport -/

/-- A transport with the answers asked of it, the lines written to the process, the answers settled
in the order in which they were settled, and the events noted. -/
structure Exchange where
  transport : Transport
  futures : Futures
  written : List String
  settled : List (Nat × Outcome)
  events : List Log.Event

namespace Exchange

/-- What can happen to a transport. -/
inductive Act where
  /-- A command is sent to a process whose input does the given thing with the line. -/
  | send (command : String) (input : Input)
  /-- Decoded output text arrives. -/
  | text (chunk : List Char)
  /-- Output bytes arrive. -/
  | output (bytes : List UInt8)
  /-- The output ends. -/
  | endOutput
  /-- Decoded error text arrives. -/
  | error (chunk : List Char)
  | cancel (future : Nat)
  | failOldest (first rest : SessionError)
  | failAll (e : SessionError)
  | clearBuffers

/-- An exchange in which nothing has happened. -/
def start (t : Transport) : Exchange :=
  { transport := t, futures := .empty, written := [], settled := [], events := [] }

/-- The answers settled so far, and what takes effect of settling more. -/
def noting (x : Exchange) (row : List (Nat × Outcome)) : List (Nat × Outcome) :=
  x.settled ++ x.futures.takingEffect row

/-- Takes output text in. -/
def feed (x : Exchange) (text : List Char) : Exchange :=
  let (t, change) := x.transport.feedOutput x.futures text
  { x with
    transport := t
    futures := change.futures
    settled := x.noting
      ((x.transport.takeOutput text).1.map (Transport.verdict x.transport.profile))
    events := x.events ++ change.events }

/-- The exchange with another transport. -/
def withTransport (x : Exchange) (t : Transport) : Exchange :=
  { x with transport := t }

/-- One act. -/
def act (x : Exchange) : Act → Exchange
  | .send command input =>
    let written := x.written ++ Transport.linesOut x.transport.profile input command
    match x.transport.send x.futures input with
    | .error _ => { x with written }
    | .ok (transport, futures, _) => { x with transport, futures, written }
  | .text chunk => x.feed chunk
  | .output bytes =>
    let (text, t) := x.transport.decodeOutput bytes
    (x.withTransport t).feed text
  | .endOutput =>
    let (text, t) := x.transport.flushOutput
    (x.withTransport t).feed text
  | .error chunk => x.withTransport (x.transport.feedError chunk)
  | .cancel future =>
    { x with futures := (x.futures.cancel future).1, settled := x.noting [(future, .cancelled)] }
  | .failOldest first rest =>
    let (transport, futures) := x.transport.failOldest x.futures first rest
    let row := x.transport.pending.zipIdx.map fun (i, n) => (i, .failed (if n = 0 then first else rest))
    { x with transport, futures, settled := x.noting row }
  | .failAll e =>
    let (transport, futures) := x.transport.failAll x.futures e
    { x with transport, futures, settled := x.noting (x.transport.pending.map (·, .failed e)) }
  | .clearBuffers => x.withTransport x.transport.clearBuffers

/-- Acts one after the other. -/
def run (x : Exchange) (acts : List Act) : Exchange :=
  acts.foldl act x

theorem run_append (x : Exchange) (as bs : List Act) : x.run (as ++ bs) = (x.run as).run bs :=
  List.foldl_append

end Exchange

/-! ## Output in two parts -/

namespace Transport

/-- The error text goes with the first response, in whichever part it is. -/
theorem assign_append (pending : List Nat) (stderr : List Char) (bs bs' : List (List Char)) :
    assign pending stderr (bs ++ bs') =
      ((assign pending stderr bs).1 ++
          (assign (assign pending stderr bs).2 (if bs.isEmpty then stderr else []) bs').1,
        (assign (assign pending stderr bs).2 (if bs.isEmpty then stderr else []) bs').2) := by
  induction bs generalizing pending stderr with
  | nil => cases pending <;> simp [assign]
  | cons b bs ih =>
    cases pending with
    | nil => cases bs' <;> simp [assign]
    | cons f pending =>
      simp only [List.cons_append, assign]
      rw [ih]
      simp

theorem takeOutput_append (t : Transport) (text more : List Char) :
    t.takeOutput (text ++ more) =
      ((t.takeOutput text).1 ++ ((t.takeOutput text).2.takeOutput more).1,
        ((t.takeOutput text).2.takeOutput more).2) := by
  simp only [takeOutput, SentinelBuffer.takeAll_append, assign_append]
  generalize (t.stdout.append text).takeAll.1 = bodies
  cases bodies <;> simp

theorem completeAll_cons (p : Profile) (fs : Futures) (c : Completion) (cs : List Completion) :
    completeAll p fs (c :: cs) =
      ⟨(completeAll p (fs.settle c.future (conclude p c).1) cs).futures,
        (conclude p c).2 ++ (completeAll p (fs.settle c.future (conclude p c).1) cs).events⟩ := rfl

theorem completeAll_append (p : Profile) (fs : Futures) (cs cs' : List Completion) :
    completeAll p fs (cs ++ cs') =
      ⟨(completeAll p (completeAll p fs cs).futures cs').futures,
        (completeAll p fs cs).events ++ (completeAll p (completeAll p fs cs).futures cs').events⟩ := by
  induction cs generalizing fs with
  | nil => rfl
  | cons c cs ih => simp only [List.cons_append, completeAll_cons, ih, List.append_assoc]

theorem takeOutput_profile (t : Transport) (text : List Char) :
    (t.takeOutput text).2.profile = t.profile := rfl

/-- The decoder does not show where a part ended. -/
theorem decodeOutput_append (t : Transport) (bytes more : List UInt8) :
    t.decodeOutput (bytes ++ more) =
      ((t.decodeOutput bytes).1 ++ ((t.decodeOutput bytes).2.decodeOutput more).1,
        ((t.decodeOutput bytes).2.decodeOutput more).2) := by
  simp only [decodeOutput, Text.Utf8.run_append, List.map_append]

end Transport

namespace Exchange

theorem feed_append (x : Exchange) (text more : List Char) :
    x.feed (text ++ more) = (x.feed text).feed more := by
  simp only [feed, noting, Transport.feedOutput, Transport.takeOutput_append, Transport.completeAll_append,
    Transport.completeAll_futures, Transport.takeOutput_profile, List.map_append,
    Futures.takingEffect_append, List.append_assoc]

theorem act_output_append (x : Exchange) (bytes more : List UInt8) :
    x.act (.output (bytes ++ more)) = (x.act (.output bytes)).act (.output more) := by
  simp only [act, Transport.decodeOutput_append, feed_append]
  -- taking text in neither reads nor changes the state of the decoder
  rfl

/-! ## Runs that differ in how the output was cut -/

/-- Output bytes in several parts are the same bytes at once. -/
theorem run_output_cons (x : Exchange) (piece : List UInt8) (pieces : List (List UInt8)) :
    x.run ((piece :: pieces).map .output) = x.act (.output (piece ++ pieces.flatten)) := by
  induction pieces generalizing x piece with
  | nil => rw [List.flatten_nil, List.append_nil]; rfl
  | cons next pieces ih =>
    rw [List.flatten_cons, act_output_append]
    exact ih (x.act (.output piece)) next

/-- Two sequences of acts that differ only in how runs of output bytes are cut into parts, none of
which is empty. -/
inductive Recut : List Act → List Act → Prop
  | nil : Recut [] []
  | act (a : Act) {as bs : List Act} : Recut as bs → Recut (a :: as) (a :: bs)
  | output {pieces pieces' : List (List UInt8)} {as bs : List Act} :
      [] ∉ pieces → [] ∉ pieces' → pieces.flatten = pieces'.flatten → Recut as bs →
      Recut (pieces.map .output ++ as) (pieces'.map .output ++ bs)

/-- Two ways to cut the same bytes leave the same exchange. -/
theorem run_output_eq (x : Exchange) {pieces pieces' : List (List UInt8)} (h : [] ∉ pieces)
    (h' : [] ∉ pieces') (heq : pieces.flatten = pieces'.flatten) :
    x.run (pieces.map .output) = x.run (pieces'.map .output) := by
  -- no part is empty, so there are no parts exactly where there are no bytes
  cases pieces with
  | nil =>
    cases pieces' with
    | nil => rfl
    | cons q qs =>
      simp only [List.flatten_nil, List.flatten_cons, List.nil_eq, List.append_eq_nil_iff] at heq
      exact absurd (heq.1 ▸ List.mem_cons_self) h'
  | cons p ps =>
    cases pieces' with
    | nil =>
      simp only [List.flatten_nil, List.flatten_cons, List.append_eq_nil_iff] at heq
      exact absurd (heq.1 ▸ List.mem_cons_self) h
    | cons q qs =>
      rw [run_output_cons, run_output_cons]
      rw [List.flatten_cons, List.flatten_cons] at heq
      rw [heq]

end Exchange
end ScriptTree.Interpreter
