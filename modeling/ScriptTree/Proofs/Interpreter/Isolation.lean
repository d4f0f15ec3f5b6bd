/-
Two runs of a transport that differ in the slot of one answer only: the answer is given up in one of
them, or the error text or the body that its slot holds is another. Every other answer comes to the
same, and the queue is the same throughout (`slots_isolated`). Outside the slot both transports are
equal; inside they are equal but for the text not yet used, and the sentinel that ends the slot drops
that text together with the answer at the front of the queue.
-/
import ScriptTree.Proofs.Interpreter.Exchange

namespace ScriptTree.Interpreter

open Text (FirstAt cutAt?_eq_some_iff cutAt?_eq_none_iff)

/-! ## Answers that agree but for one -/

namespace Futures

/-- The same answers were asked for, and all but one stand alike. -/
structure SameBut (i : Nat) (fs fs' : Futures) : Prop where
  length : fs.outcomes.length = fs'.outcomes.length
  others : ∀ f : Nat, f ≠ i → fs.outcomes[f]? = fs'.outcomes[f]?

namespace SameBut

variable {i : Nat} {fs fs' : Futures}

theorem refl (i : Nat) (fs : Futures) : SameBut i fs fs :=
  ⟨rfl, fun _ _ => rfl⟩

theorem symm (h : SameBut i fs fs') : SameBut i fs' fs :=
  ⟨h.length.symm, fun f hf => (h.others f hf).symm⟩

theorem trans {fs'' : Futures} (h : SameBut i fs fs') (h' : SameBut i fs' fs'') : SameBut i fs fs'' :=
  ⟨h.length.trans h'.length, fun f hf => (h.others f hf).trans (h'.others f hf)⟩

theorem add (h : SameBut i fs fs') (o : Outcome) : SameBut i (fs.add o).1 (fs'.add o).1 where
  length := by simp only [Futures.add, List.length_append, h.length]
  others f hf := by
    simp only [Futures.add, List.getElem?_append, h.length]
    split
    · exact h.others f hf
    · rfl

theorem settle (h : SameBut i fs fs') (f : Nat) (o : Outcome) :
    SameBut i (fs.settle f o) (fs'.settle f o) where
  length := by simp only [Futures.settle, List.length_modify, h.length]
  others g hg := by rw [settle_getElem?, settle_getElem?, h.others g hg]

theorem settleEach (h : SameBut i fs fs') (row : List (Nat × Outcome)) :
    SameBut i (fs.settleEach row) (fs'.settleEach row) := by
  induction row generalizing fs fs' with
  | nil => exact h
  | cons a row ih => exact ih (h.settle a.1 a.2)

/-- The one answer may be settled. -/
theorem settle_own (i : Nat) (fs : Futures) (o : Outcome) : SameBut i (fs.settle i o) fs where
  length := List.length_modify ..
  others f hf := by rw [settle_getElem?, if_neg (Ne.symm hf)]

theorem settleEach_own (fs : Futures) {row : List (Nat × Outcome)} (h : ∀ a ∈ row, a.1 = i) :
    SameBut i (fs.settleEach row) fs := by
  induction row generalizing fs with
  | nil => exact refl i fs
  | cons a row ih =>
    have hown : SameBut i (fs.settle a.1 a.2) fs := by
      rw [h a List.mem_cons_self]
      exact settle_own i fs a.2
    exact (ih _ fun b hb => h b (List.mem_cons_of_mem _ hb)).trans hown

end SameBut

theorem settleAll_eq_settleEach (fs : Futures) (is : List Nat) (o : Outcome) :
    fs.settleAll is o = fs.settleEach (is.map (·, o)) := by
  unfold settleAll settleEach
  rw [List.foldl_map]

/-- To give an answer up is to settle it. -/
theorem cancel_eq_settle (fs : Futures) (i : Nat) : (fs.cancel i).1 = fs.settle i .cancelled := by
  have hclosed : fs.get i ≠ .pending → fs = fs.settle i .cancelled := by
    intro h
    have hsame : ∀ f : Nat, fs.outcomes[f]? = (fs.settle i .cancelled).outcomes[f]? := by
      intro f
      rw [settle_getElem?]
      split
      · rename_i hf
        subst hf
        cases ho : fs.outcomes[i]? with
        | none => rfl
        | some o =>
          rw [get, List.getD, ho] at h
          cases o <;> first | exact absurd rfl h | rfl
      · rfl
    exact congrArg Futures.mk (List.ext_getElem? hsame)
  unfold cancel
  split
  · rfl
  · rename_i h
    exact hclosed (by simp [h])
  · rename_i h _
    exact hclosed h

end Futures

namespace Transport

/-- To fail the oldest answer is to empty the queue and to settle the answers in their order. -/
theorem failOldest_eq (t : Transport) (fs : Futures) (first rest : SessionError) :
    t.failOldest fs first rest =
      ({ t with pending := [] },
        fs.settleEach
          (t.pending.head?.toList.map (·, .failed first) ++ t.pending.tail.map (·, .failed rest))) := by
  obtain ⟨profile, stdout, stderr, outDecoder, errDecoder, pending⟩ := t
  cases pending with
  | nil => rfl
  | cons i is => exact congrArg (Prod.mk _) (Futures.settleAll_eq_settleEach _ is _)

/-- One response goes to the oldest answer waited for. -/
theorem assign_one (pending : List Nat) (stderr body : List Char) :
    assign pending stderr [body] =
      (pending.head?.toList.map fun f => { future := f, body, stderr }, pending.tail) := by
  cases pending with
  | nil => rfl
  | cons f fs =>
    simp only [assign]
    rfl

end Transport

/-! ## A piece of text without a sentinel, and one that ends a response -/

namespace SentinelBuffer

/-- No response is whole yet. -/
def Unfinished (b : SentinelBuffer) : Prop :=
  ¬ b.sentinel <:+: b.text

/-- The text is one whole response: a body and the first sentinel, which is right behind it. -/
def Finished (b : SentinelBuffer) (body : List Char) : Prop :=
  b.text = body ++ b.sentinel ∧ FirstAt b.sentinel b.text body.length

theorem finished_iff {b : SentinelBuffer} {body : List Char} :
    b.Finished body ↔ Text.cutAt? b.sentinel b.text = some (body, []) := by
  rw [cutAt?_eq_some_iff, List.append_nil]
  rfl

theorem takeAll_of_unfinished {b : SentinelBuffer} (h : b.Unfinished) : b.takeAll = ([], b.join) :=
  takeAll_of_none (cutAt?_eq_none_iff.2 h)

theorem takeAll_of_finished {b : SentinelBuffer} {body : List Char} (h : b.Finished body) :
    b.takeAll = ([body], b.clear) := by
  have hnil : Text.cutAt? b.clear.sentinel b.clear.text = none :=
    cutAt?_eq_none_iff.2 fun hin => b.nonempty (List.infix_nil.1 hin)
  have hrest : (b.holding []).takeAll = ([], b.clear) := takeAll_of_none hnil
  rw [takeAll_of_some (finished_iff.1 h), hrest]

end SentinelBuffer

namespace Exchange

variable {x y : Exchange} {i : Nat}

/-- The exchange without the text not yet used. -/
def cleared (x : Exchange) : Exchange :=
  x.withTransport x.transport.clearBuffers

/-- The exchange with the oldest answer waited for, if there is one, out of the queue. -/
def served (x : Exchange) : Exchange :=
  x.withTransport { x.transport with pending := x.transport.pending.tail }

/-- Output text settles the answers that its responses complete. -/
theorem feed_futures (x : Exchange) (text : List Char) :
    (x.feed text).futures = x.futures.settleEach
      ((x.transport.takeOutput text).1.map (Transport.verdict x.transport.profile)) :=
  Transport.completeAll_futures ..

/-- A line that is not taken changes no answer. -/
theorem act_send_of_fault {e : SessionError} {command : String} {input : Input}
    (h : Transport.writeFault? x.transport.profile input = some e) :
    x.act (.send command input) =
      { x with written := x.written ++ Transport.linesOut x.transport.profile input command } := by
  unfold act Transport.send
  simp only [h]

/-- A line that is taken asks for a new answer at the end of the queue. -/
theorem act_send_of_taken {command : String} {input : Input}
    (h : Transport.writeFault? x.transport.profile input = none) :
    x.act (.send command input) =
      { x with
        transport := x.transport.enqueue x.futures.outcomes.length
        futures := (x.futures.add .pending).1
        written := x.written ++ Transport.linesOut x.transport.profile input command } := by
  unfold act Transport.send
  simp only [h]
  rfl

/-- Text that ends no response is only kept. -/
theorem feed_unfinished {text : List Char} (h : (x.transport.stdout.append text).Unfinished) :
    (x.feed text).cleared = x.cleared := by
  have htake : x.transport.takeOutput text =
      ([], { x.transport with stdout := (x.transport.stdout.append text).join }) := by
    simp only [Transport.takeOutput, SentinelBuffer.takeAll_of_unfinished h, Transport.assign,
      List.isEmpty_nil, if_true]
  unfold feed Transport.feedOutput
  simp only [htake, Transport.completeAll, List.map_nil, noting, Futures.takingEffect, List.append_nil]
  rfl

/-! ## Exchanges that agree but for one answer -/

/-- The same commands were written, the transports are equal, and all answers but one stand alike. -/
structure SameBut (i : Nat) (x y : Exchange) : Prop where
  transport : x.transport = y.transport
  written : x.written = y.written
  futures : x.futures.SameBut i y.futures

namespace SameBut

theorem refl (i : Nat) (x : Exchange) : SameBut i x x :=
  ⟨rfl, rfl, .refl i x.futures⟩

theorem symm (h : SameBut i x y) : SameBut i y x :=
  ⟨h.transport.symm, h.written.symm, h.futures.symm⟩

theorem trans {z : Exchange} (h : SameBut i x y) (h' : SameBut i y z) : SameBut i x z :=
  ⟨h.transport.trans h'.transport, h.written.trans h'.written, h.futures.trans h'.futures⟩

theorem withTransport (h : SameBut i x y) {t t' : Transport} (ht : t = t') :
    SameBut i (x.withTransport t) (y.withTransport t') :=
  ⟨ht, h.written, h.futures⟩

theorem feed (h : SameBut i x y) (text : List Char) : SameBut i (x.feed text) (y.feed text) where
  transport := congrArg (fun t => (t.takeOutput text).2) h.transport
  written := h.written
  futures := by
    rw [feed_futures, feed_futures, h.transport]
    exact h.futures.settleEach _

/-- The same act in both keeps them alike. -/
theorem act (h : SameBut i x y) (a : Act) : SameBut i (x.act a) (y.act a) := by
  cases a with
  | send command input =>
    have hwritten : x.written ++ Transport.linesOut x.transport.profile input command =
        y.written ++ Transport.linesOut y.transport.profile input command := by
      rw [h.written, h.transport]
    cases hfault : Transport.writeFault? x.transport.profile input with
    | some e =>
      rw [act_send_of_fault hfault, act_send_of_fault (h.transport ▸ hfault)]
      exact ⟨h.transport, hwritten, h.futures⟩
    | none =>
      rw [act_send_of_taken hfault, act_send_of_taken (h.transport ▸ hfault)]
      -- the new answers have the same name, as equally many were asked for
      exact ⟨congrArg₂ Transport.enqueue h.transport h.futures.length, hwritten, h.futures.add .pending⟩
  | text chunk => exact h.feed chunk
  | output bytes =>
    simp only [Exchange.act, h.transport]
    exact (h.withTransport rfl).feed _
  | endOutput =>
    simp only [Exchange.act, h.transport]
    exact (h.withTransport rfl).feed _
  | error chunk => exact h.withTransport (congrArg (·.feedError chunk) h.transport)
  | cancel f =>
    refine ⟨h.transport, h.written, ?_⟩
    show Futures.SameBut i (x.futures.cancel f).1 (y.futures.cancel f).1
    rw [Futures.cancel_eq_settle, Futures.cancel_eq_settle]
    exact h.futures.settle f _
  | failOldest first rest =>
    simp only [Exchange.act, Transport.failOldest_eq, h.transport]
    exact ⟨rfl, h.written, h.futures.settleEach _⟩
  | failAll e =>
    simp only [Exchange.act, Transport.failAll, Futures.settleAll_eq_settleEach, h.transport]
    exact ⟨rfl, h.written, h.futures.settleEach _⟩
  | clearBuffers => exact h.withTransport (congrArg Transport.clearBuffers h.transport)

/-- The one answer may be given up. -/
theorem cancel_own (i : Nat) (x : Exchange) : SameBut i (x.act (.cancel i)) x := by
  refine ⟨rfl, rfl, ?_⟩
  show Futures.SameBut i (x.futures.cancel i).1 x.futures
  rw [Futures.cancel_eq_settle]
  exact .settle_own i x.futures _

/-- Text that ends the slot of the one answer leaves nothing but the rest of the queue, whatever the
body and the error text were. -/
theorem feed_finished {text body : List Char} (h : (x.transport.stdout.append text).Finished body)
    (hown : ∀ f ∈ x.transport.pending.head?, f = i) : SameBut i (x.feed text) x.cleared.served := by
  have htake : x.transport.takeOutput text =
      (x.transport.pending.head?.toList.map fun f => { future := f, body, stderr := x.transport.stderr },
        { x.transport.clearBuffers with pending := x.transport.pending.tail }) := by
    simp only [Transport.takeOutput, SentinelBuffer.takeAll_of_finished h, Transport.assign_one]
    rfl
  refine ⟨congrArg Prod.snd htake, rfl, ?_⟩
  rw [feed_futures, htake, List.map_map]
  refine .settleEach_own _ fun a ha => ?_
  obtain ⟨f, hf, rfl⟩ := List.mem_map.1 ha
  exact hown f (Option.mem_toList.1 hf)

end SameBut

/-! ## Runs that differ in one slot -/

/-- Acts that neither bring text nor forget it. -/
def Act.isApart : Act → Bool
  | .send _ _ | .cancel _ | .failOldest _ _ | .failAll _ => true
  | _ => false

/-- Such an act does not see the text not yet used. -/
theorem act_cleared {a : Act} (h : a.isApart = true) (x : Exchange) :
    (x.act a).cleared = x.cleared.act a := by
  cases a with
  | send command input =>
    cases hfault : Transport.writeFault? x.transport.profile input with
    | some e =>
      have hcleared : Transport.writeFault? x.cleared.transport.profile input = some e := hfault
      rw [act_send_of_fault hfault, act_send_of_fault hcleared]
      rfl
    | none =>
      have hcleared : Transport.writeFault? x.cleared.transport.profile input = none := hfault
      rw [act_send_of_taken hfault, act_send_of_taken hcleared]
      rfl
  | cancel f => rfl
  | failOldest first rest =>
    simp only [act, Transport.failOldest_eq]
    rfl
  | failAll e => rfl
  | _ => cases h

/-- Where two runs are that differ in one slot: outside, where all text is the same, or inside. -/
inductive Place where
  | outside
  | inside

/-- What the two runs have in common at a place: inside the slot not the text. -/
def Place.view : Place → Exchange → Exchange
  | .outside, x => x
  | .inside, x => x.cleared

/-- Two sequences of acts from `x` on that differ only in the slot of the answer `i`, which begins after
the sentinel before it and ends with its own. A rule adds what comes next in both or in one of them, so
the beginnings that correspond to each other are related as well. -/
inductive DifferIn (x : Exchange) (i : Nat) : Place → List Act → List Act → Prop
  | start : DifferIn x i .outside [] []
  | symm {p : Place} {as bs : List Act} : DifferIn x i p as bs → DifferIn x i p bs as
  /-- Outside the slot the same happens in both. -/
  | same (a : Act) {as bs : List Act} :
      DifferIn x i .outside as bs → DifferIn x i .outside (as ++ [a]) (bs ++ [a])
  /-- The answer is given up in one of them, at any point. -/
  | cancel {p : Place} {as bs : List Act} : DifferIn x i p as bs → DifferIn x i p (as ++ [.cancel i]) bs
  | enter {as bs : List Act} : DifferIn x i .outside as bs → DifferIn x i .inside as bs
  /-- Inside the slot the same happens in both apart from the text. -/
  | apart {a : Act} {as bs : List Act} (h : a.isApart = true) :
      DifferIn x i .inside as bs → DifferIn x i .inside (as ++ [a]) (bs ++ [a])
  /-- Error text comes in one of them. -/
  | error (chunk : List Char) {as bs : List Act} :
      DifferIn x i .inside as bs → DifferIn x i .inside (as ++ [.error chunk]) bs
  /-- A part of the body comes in one of them. -/
  | part {chunk : List Char} {as bs : List Act}
      (h : ((x.run as).transport.stdout.append chunk).Unfinished) :
      DifferIn x i .inside as bs → DifferIn x i .inside (as ++ [.text chunk]) bs
  /-- The sentinel ends the slot in both, after one body or the other. The answer is the first in the
  queue then, or nobody waits. -/
  | leave {chunk chunk' body body' : List Char} {as bs : List Act}
      (h : ((x.run as).transport.stdout.append chunk).Finished body)
      (h' : ((x.run bs).transport.stdout.append chunk').Finished body')
      (hown : ∀ f ∈ (x.run as).transport.pending.head?, f = i) :
      DifferIn x i .inside as bs → DifferIn x i .outside (as ++ [.text chunk]) (bs ++ [.text chunk'])
  /-- The text of the slot is forgotten in both. -/
  | clear {as bs : List Act} :
      DifferIn x i .inside as bs → DifferIn x i .outside (as ++ [.clearBuffers]) (bs ++ [.clearBuffers])
  /-- What comes in two parts of one of them may come in one, so that a part may hold the end of a
  slot and the beginning of the next. -/
  | join {p : Place} {chunk more : List Char} {as bs : List Act} :
      DifferIn x i p (as ++ [.text chunk] ++ [.text more]) bs →
      DifferIn x i p (as ++ [.text (chunk ++ more)]) bs

theorem run_snoc (x : Exchange) (as : List Act) (a : Act) : x.run (as ++ [a]) = (x.run as).act a :=
  run_append x as [a]

theorem view_cancel (p : Place) (x : Exchange) (i : Nat) :
    p.view (x.act (.cancel i)) = (p.view x).act (.cancel i) := by
  cases p <;> rfl

/-- At each place two such runs agree in what they have in common there, but for the one answer. -/
theorem run_sameBut {p : Place} {as bs : List Act} (h : DifferIn x i p as bs) :
    SameBut i (p.view (x.run as)) (p.view (x.run bs)) := by
  induction h with
  | start => exact .refl i x
  | symm _ ih => exact ih.symm
  | same a _ ih =>
    rw [run_snoc, run_snoc]
    exact ih.act a
  | cancel _ ih =>
    rw [run_snoc, view_cancel]
    exact (SameBut.cancel_own i _).trans ih
  -- what is in common inside is what is left when the text is forgotten
  | enter _ ih => exact ih.act .clearBuffers
  | apart ha _ ih =>
    rw [run_snoc, run_snoc]
    show SameBut i (Exchange.cleared _) (Exchange.cleared _)
    rw [act_cleared ha, act_cleared ha]
    exact ih.act _
  | error chunk _ ih =>
    rw [run_snoc]
    exact ih
  | part hunfinished _ ih =>
    rw [run_snoc]
    show SameBut i (Exchange.cleared (Exchange.feed _ _)) _
    rw [feed_unfinished hunfinished]
    exact ih
  | leave hfinished hfinished' hown _ ih =>
    rw [run_snoc, run_snoc]
    -- both sentinels take the same answer off the same queue
    have hpending := congrArg Transport.pending ih.transport
    have hserved : SameBut i (Exchange.served _) (Exchange.served _) :=
      ih.withTransport (congrArg (fun t => { t with pending := t.pending.tail }) ih.transport)
    exact (SameBut.feed_finished hfinished hown).trans
      (hserved.trans (SameBut.feed_finished hfinished' fun f hf => hown f (hpending ▸ hf)).symm)
  | clear _ ih =>
    rw [run_snoc, run_snoc]
    exact ih
  | join _ ih =>
    rw [run_snoc, run_snoc] at ih
    rw [run_snoc]
    show SameBut i (Place.view _ (Exchange.feed _ _)) _
    rw [feed_append]
    exact ih

/-- Whatever happens in the slot of one answer, whether it is given up, whatever its body and its error
text are: every other answer stands as it would have stood, the queue is the same, and so is what was
written to the process. After the slot nothing of it is left. -/
theorem slots_isolated {p : Place} {as bs : List Act} (h : DifferIn x i p as bs) :
    (∀ f : Nat, f ≠ i → (x.run as).futures.outcomes[f]? = (x.run bs).futures.outcomes[f]?) ∧
      (x.run as).transport.pending = (x.run bs).transport.pending ∧
      (x.run as).written = (x.run bs).written ∧
      (p = .outside → (x.run as).transport = (x.run bs).transport) := by
  have hsame := run_sameBut h
  cases p with
  | outside =>
    exact ⟨hsame.futures.others, congrArg Transport.pending hsame.transport, hsame.written,
      fun _ => hsame.transport⟩
  | inside =>
    have hcleared : (x.run as).transport.clearBuffers = (x.run bs).transport.clearBuffers := hsame.transport
    exact ⟨hsame.futures.others, (congrArg Transport.pending hcleared :), hsame.written, nofun⟩

/-- Two commands wait. In the second run the first is given up, nothing comes on the error stream and
its body is another; all its output comes with that of the second in one part. -/
theorem slots_isolated_given_up :
    let t : Transport :=
      { profile := .sh, stdout := ⟨['.'], by decide, [], []⟩, stderr := [], outDecoder := .start,
        errDecoder := .start, pending := [] }
    let x := start t
    let kept : List Act :=
      [.send "a" .accepts, .send "b" .accepts, .error ['!'], .text ['A', '.', 'B', '.']]
    let givenUp : List Act :=
      [.send "a" .accepts, .send "b" .accepts, .cancel 0, .text ['C', 'C', '.', 'B', '.']]
    DifferIn x 0 .outside kept givenUp ∧
      (x.run kept).futures.outcomes[1]? = (x.run givenUp).futures.outcomes[1]? ∧
      (x.run kept).futures.outcomes = [.done ['A'], .done ['B']] ∧
      (x.run givenUp).futures.outcomes = [.cancelled, .done ['B']] := by
  intro t x kept givenUp
  let sent : List Act := [.send "a" .accepts, .send "b" .accepts]
  have hsent : DifferIn x 0 .outside sent sent :=
    .same (.send "b" .accepts) (.same (.send "a" .accepts) .start)
  have hinside : DifferIn x 0 .inside (sent ++ [.error ['!']]) (sent ++ [.cancel 0]) :=
    .error ['!'] (.enter (.symm (.cancel hsent)))
  have hfinished : ((x.run (sent ++ [.error ['!']])).transport.stdout.append ['A', '.']).Finished ['A'] :=
    SentinelBuffer.finished_iff.2 (by cbv)
  have hfinished' :
      ((x.run (sent ++ [.cancel 0])).transport.stdout.append ['C', 'C', '.']).Finished ['C', 'C'] :=
    SentinelBuffer.finished_iff.2 (by cbv)
  have hpending : (x.run (sent ++ [.error ['!']])).transport.pending = [0, 1] := by cbv
  have hown : ∀ f ∈ (x.run (sent ++ [.error ['!']])).transport.pending.head?, f = 0 := by
    rw [hpending]
    exact fun f hf => (Option.some.inj hf).symm
  have hleft : DifferIn x 0 .outside (sent ++ [.error ['!']] ++ [.text ['A', '.']])
      (sent ++ [.cancel 0] ++ [.text ['C', 'C', '.']]) := .leave hfinished hfinished' hown hinside
  have hdiffer : DifferIn x 0 .outside kept givenUp :=
    .join (.symm (.join (.symm (.same (.text ['B', '.']) hleft))))
  exact ⟨hdiffer, (slots_isolated hdiffer).1 1 (by decide), by cbv, by cbv⟩

end Exchange
end ScriptTree.Interpreter
