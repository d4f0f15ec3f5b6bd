/-
A client and one interpreter process that answers each line it reads by a text, the sentinel and a
line break. Sends, answers and deliveries of output interleave in any order, and the output is
delivered in parts cut anywhere. Each answer asked for is settled by the text printed for its own
command, in the order of sending, and nothing is left open once all output is delivered.

The invariant ties the queue to the stream: what the buffer holds, followed by what is in flight,
is the stream of the answers not yet used, perhaps after the line break of the last one used.
-/
import ScriptTree.Proofs.Interpreter.Exchange
import ScriptTree.Proofs.Interpreter.Response

namespace ScriptTree.Interpreter

open Text

/-! ## Client, interpreter and channel -/

/-- What an interpreter prints for one line: a text, and the line break after the sentinel. -/
structure Answer where
  body : List Char
  lineEnd : LineEnd
  deriving DecidableEq, Repr

namespace Answer

/-- The output of an answer. -/
def output (sentinel : List Char) (a : Answer) : List Char :=
  a.body ++ sentinel ++ a.lineEnd.text

/-- The text does not begin the sentinel early. -/
def Separate (sentinel : List Char) (a : Answer) : Prop :=
  FirstAt sentinel (a.body ++ sentinel) a.body.length

/-- How an answer settles what its command asked for. -/
def outcome (a : Answer) : Outcome :=
  .done (normalize a.body)

end Answer

/-- A transport with the commands sent, the answers that the interpreter gave, the first to the
first line it read, and the output that is printed but not delivered. -/
structure Dialogue where
  exchange : Exchange
  commands : List String
  answers : List Answer
  inFlight : List Char

namespace Dialogue

/-- The dialogue with a process that has read nothing. -/
def start (t : Transport) : Dialogue :=
  { exchange := .start t, commands := [], answers := [], inFlight := [] }

/-- The client sends a command. -/
def send (d : Dialogue) (command : String) : Dialogue :=
  { d with
    exchange := d.exchange.act (.send command .accepts)
    commands := d.commands ++ [command] }

/-- The interpreter answers the next line. -/
def answer (p : Profile) (d : Dialogue) (a : Answer) : Dialogue :=
  { d with
    answers := d.answers ++ [a]
    inFlight := d.inFlight ++ a.output p.sentinel.toList }

/-- A part of the output is delivered. -/
def deliver (d : Dialogue) (chunk rest : List Char) : Dialogue :=
  { d with exchange := d.exchange.act (.text chunk), inFlight := rest }

/-- One step of a dialogue. The interpreter answers only lines that were written. -/
inductive Step (p : Profile) : Dialogue → Dialogue → Prop
  | send (d : Dialogue) (command : String) : Step p d (d.send command)
  | answer (d : Dialogue) (a : Answer) : d.answers.length < d.exchange.written.length →
      a.Separate p.sentinel.toList → Step p d (d.answer p a)
  | deliver (d : Dialogue) (chunk rest : List Char) : d.inFlight = chunk ++ rest →
      Step p d (d.deliver chunk rest)

/-- The dialogues with an interpreter of a profile. -/
inductive Reachable (p : Profile) : Dialogue → Prop
  | start {t : Transport} : Transport.new? p = some t → Reachable p (.start t)
  | next {d d' : Dialogue} : Reachable p d → Step p d d' → Reachable p d'

end Dialogue

/-! ## The stream of answers -/

section

variable {sentinel : List Char} (nonempty : sentinel ≠ [])

/-- Nothing, or the line break of the answer before. -/
def IsLead (lead : List Char) : Prop :=
  lead = [] ∨ ∃ e : LineEnd, lead = e.text

theorem normalize_lead {lead : List Char} (h : IsLead lead) (cs : List Char) :
    normalize (lead ++ cs) = normalize cs := by
  rcases h with rfl | ⟨e, rfl⟩
  · rfl
  · exact normalize_lineEnd e cs

/-- A text that holds no beginning of the mark does not move a cut after it. -/
theorem cutAt?_of_not_mem {c : Char} {mark lead text body rest : List Char} (hlead : c ∉ lead)
    (h : cutAt? (c :: mark) text = some (body, rest)) :
    cutAt? (c :: mark) (lead ++ text) = some (lead ++ body, rest) := by
  induction lead with
  | nil => exact h
  | cons b bs ih =>
    simp only [List.mem_cons, not_or] at hlead
    rw [List.cons_append, cutAt?, ih hlead.2, if_neg]
    · rfl
    · simp [hlead.1]

theorem cutAt?_eq_none_of_not_mem {c : Char} {mark text : List Char} (h : c ∉ text) :
    cutAt? (c :: mark) text = none :=
  cutAt?_eq_none_iff.2 fun hin => h (hin.subset List.mem_cons_self)

/-- The sentinel begins no line break. -/
def SplitsLines (sentinel : List Char) : Prop :=
  ∃ c mark, sentinel = c :: mark ∧ c ≠ '\n' ∧ c ≠ '\r'

theorem not_mem_lead {c : Char} {lead : List Char} (h : IsLead lead) (h1 : c ≠ '\n') (h2 : c ≠ '\r') :
    c ∉ lead := by
  rcases h with rfl | ⟨e, rfl⟩
  · exact List.not_mem_nil
  · cases e <;> simp [LineEnd.text, h1, h2]

/-- The first response of the stream is the first answer's text after the line break before it. -/
theorem cutAt?_answer {lead : List Char} {a : Answer} (hs : SplitsLines sentinel)
    (hlead : IsLead lead) (ha : a.Separate sentinel) (rest : List Char) :
    cutAt? sentinel (lead ++ (a.output sentinel ++ rest)) =
      some (lead ++ a.body, a.lineEnd.text ++ rest) := by
  obtain ⟨c, mark, rfl, h1, h2⟩ := hs
  have own : cutAt? (c :: mark) (a.body ++ (c :: mark)) = some (a.body, []) :=
    cutAt?_eq_some_iff.2 ⟨by simp, ha⟩
  have whole := cutAt?_append own (a.lineEnd.text ++ rest)
  rw [List.nil_append, ← List.append_assoc] at whole
  rw [Answer.output, List.append_assoc (a.body ++ _)]
  rw [List.append_assoc (a.body ++ _)] at whole
  exact cutAt?_of_not_mem (not_mem_lead hlead h1 h2) whole

/-- However much of the stream has come, it holds the first few answers' texts, and what is left
over goes on with the other answers. -/
theorem responses_stream (hs : SplitsLines sentinel) (answers : List Answer)
    (separate : ∀ a ∈ answers, a.Separate sentinel) :
    ∀ (lead text rest : List Char), IsLead lead →
      text ++ rest = lead ++ answers.flatMap (Answer.output sentinel) →
      ∃ j ≤ answers.length, ∃ lead', IsLead lead' ∧
        (responses sentinel nonempty text).1.map normalize =
          (answers.take j).map (fun a => normalize a.body) ∧
        (responses sentinel nonempty text).2 ++ rest =
          lead' ++ (answers.drop j).flatMap (Answer.output sentinel) := by
  induction answers with
  | nil =>
    intro lead text rest hlead h
    obtain ⟨c, mark, rfl, h1, h2⟩ := hs
    rw [List.flatMap_nil, List.append_nil] at h
    have hc : c ∉ text := fun hm =>
      not_mem_lead hlead h1 h2 (h ▸ List.mem_append_left rest hm)
    rw [responses_of_none nonempty (cutAt?_eq_none_of_not_mem hc)]
    exact ⟨0, le_refl _, lead, hlead, rfl, by simpa using h⟩
  | cons a answers ih =>
    intro lead text rest hlead h
    rw [List.flatMap_cons] at h
    have hfirst := cutAt?_answer hs hlead (separate a List.mem_cons_self)
      (answers.flatMap (Answer.output sentinel))
    rw [← h] at hfirst
    cases hcut : cutAt? sentinel text with
    | none =>
      rw [responses_of_none nonempty hcut]
      exact ⟨0, by simp, lead, hlead, rfl, by simpa using h⟩
    | some q =>
      obtain ⟨body, left⟩ := q
      -- the cut in what has come is the cut in the whole stream
      have hsame := cutAt?_append hcut rest
      rw [hfirst] at hsame
      simp only [Option.some.injEq, Prod.mk.injEq] at hsame
      obtain ⟨rfl, hrest⟩ := hsame
      rw [responses_of_some nonempty hcut]
      obtain ⟨j, hj, lead', hlead', hbodies, hleft⟩ :=
        ih (fun a ha => separate a (List.mem_cons_of_mem _ ha)) a.lineEnd.text left rest
          (.inr ⟨_, rfl⟩) hrest.symm
      refine ⟨j + 1, Nat.succ_le_succ hj, lead', hlead', ?_, by simpa using hleft⟩
      simp only [List.map_cons, List.take_succ_cons, hbodies, normalize_lead hlead]

end

/-! ## Settling the first answers of the queue -/

theorem Futures.settle_append (os rest : List Outcome) (o : Outcome) :
    (⟨os ++ .pending :: rest⟩ : Futures).settle os.length o = ⟨os ++ o :: rest⟩ := by
  show (⟨(os ++ .pending :: rest).modify os.length _⟩ : Futures) = _
  congr 1
  induction os with
  | nil => rfl
  | cons o' os ih => rw [List.cons_append, List.length_cons, List.modify_succ_cons, ih]; rfl

namespace Transport

/-- The responses in a row that answer a queue in which names go up from `k`, without error text. -/
def quietCompletions (k : Nat) (bodies : List (List Char)) : List Completion :=
  (bodies.zipIdx k).map fun (body, future) => { future, body, stderr := [] }

theorem quietCompletions_cons (k : Nat) (body : List Char) (bodies : List (List Char)) :
    quietCompletions k (body :: bodies) =
      { future := k, body, stderr := [] } :: quietCompletions (k + 1) bodies := rfl

theorem quietCompletions_future (p : Profile) (k : Nat) (bodies : List (List Char)) :
    ((quietCompletions k bodies).map (verdict p)).map Prod.fst = List.range' k bodies.length := by
  rw [quietCompletions, List.map_map, List.map_map]
  exact List.zipIdx_map_snd k bodies

theorem assign_range' (bodies : List (List Char)) : ∀ k n, bodies.length ≤ n →
    assign (List.range' k n) [] bodies =
      (quietCompletions k bodies, List.range' (k + bodies.length) (n - bodies.length)) := by
  induction bodies with
  | nil => intro k n _; cases n <;> rfl
  | cons body bodies ih =>
    intro k n h
    obtain ⟨n, rfl⟩ : ∃ m, n = m + 1 := ⟨n - 1, by simp at h; omega⟩
    rw [List.range'_succ, assign, ih (k + 1) n (by simpa using h), quietCompletions_cons]
    simp [Nat.add_assoc, Nat.add_comm 1]

/-- Without error text a response settles its answer, and nothing is noted. -/
theorem conclude_quiet (p : Profile) (f : Nat) (body : List Char) :
    conclude p { future := f, body, stderr := [] } = (.done (normalize body), []) := by
  simp [conclude, normalize_nil]

theorem quietCompletions_outcome (p : Profile) (k : Nat) (bodies : List (List Char)) :
    ((quietCompletions k bodies).map (verdict p)).map Prod.snd =
      bodies.map fun b => .done (normalize b) := by
  induction bodies generalizing k with
  | nil => rfl
  | cons body bodies ih =>
    rw [quietCompletions_cons, List.map_cons, List.map_cons, ih, verdict, conclude_quiet, List.map_cons]

theorem completeAll_quiet (p : Profile) (bodies : List (List Char)) : ∀ (os : List Outcome) (n : Nat),
    bodies.length ≤ n →
      completeAll p ⟨os ++ List.replicate n .pending⟩ (quietCompletions os.length bodies) =
        ⟨⟨os ++ bodies.map (fun b => .done (normalize b)) ++
          List.replicate (n - bodies.length) .pending⟩, []⟩ := by
  induction bodies with
  | nil => intro os n _; simp [quietCompletions, completeAll]
  | cons body bodies ih =>
    intro os n h
    obtain ⟨n, rfl⟩ : ∃ m, n = m + 1 := ⟨n - 1, by simp at h; omega⟩
    have hrest := ih (os ++ [.done (normalize body)]) n (by simpa using h)
    rw [List.length_append, List.length_singleton, List.append_assoc, List.singleton_append] at hrest
    rw [quietCompletions_cons, completeAll_cons, conclude_quiet, List.replicate_succ,
      Futures.settle_append, hrest]
    simp

/-- All of the responses take effect. -/
theorem takingEffect_quiet (p : Profile) (bodies : List (List Char)) : ∀ (os : List Outcome) (n : Nat),
    bodies.length ≤ n →
      (⟨os ++ List.replicate n .pending⟩ : Futures).takingEffect
          ((quietCompletions os.length bodies).map (verdict p)) =
        (quietCompletions os.length bodies).map (verdict p) := by
  induction bodies with
  | nil => intro os n _; rfl
  | cons body bodies ih =>
    intro os n h
    obtain ⟨n, rfl⟩ : ∃ m, n = m + 1 := ⟨n - 1, by simp at h; omega⟩
    have hrest := ih (os ++ [.done (normalize body)]) n (by simpa using h)
    rw [List.length_append, List.length_singleton, List.append_assoc, List.singleton_append] at hrest
    have hopen : (os ++ List.replicate (n + 1) Outcome.pending)[os.length]? = some .pending := by
      simp [List.replicate_succ]
    rw [quietCompletions_cons, List.map_cons, Futures.takingEffect, verdict, conclude_quiet, if_pos hopen,
      List.replicate_succ, Futures.settle_append, hrest]

theorem takeOutput_quiet {t : Transport} {text : List Char} {bodies : List (List Char)}
    {stdout : SentinelBuffer} {k n : Nat} (hstderr : t.stderr = []) (hpending : t.pending = List.range' k n)
    (htake : (t.stdout.append text).takeAll = (bodies, stdout)) (hle : bodies.length ≤ n) :
    t.takeOutput text =
      (quietCompletions k bodies,
        { t with stdout, pending := List.range' (k + bodies.length) (n - bodies.length) }) := by
  simp only [takeOutput, htake, hstderr, hpending, assign_range' bodies k n hle, ite_self]

end Transport

/-- Output text without error text settles the first open answers in order. -/
theorem Exchange.feed_quiet {x : Exchange} {text : List Char} {bodies : List (List Char)}
    {stdout : SentinelBuffer} {os : List Outcome} {n : Nat} (hstderr : x.transport.stderr = [])
    (hpending : x.transport.pending = List.range' os.length n)
    (houtcomes : x.futures.outcomes = os ++ List.replicate n .pending)
    (htake : (x.transport.stdout.append text).takeAll = (bodies, stdout)) (hle : bodies.length ≤ n) :
    x.feed text =
      { transport :=
          { x.transport with
            stdout, pending := List.range' (os.length + bodies.length) (n - bodies.length) }
        futures := ⟨os ++ bodies.map (fun b => .done (normalize b)) ++
          List.replicate (n - bodies.length) .pending⟩
        written := x.written
        settled := x.settled ++ (Transport.quietCompletions os.length bodies).map
          (Transport.verdict x.transport.profile)
        events := x.events } := by
  obtain ⟨t, ⟨outcomes⟩, written, settled, events⟩ := x
  simp only at houtcomes
  subst houtcomes
  simp only [feed, noting, Transport.feedOutput, Transport.takeOutput_quiet hstderr hpending htake hle,
    Transport.completeAll_quiet _ _ _ _ hle, Transport.takingEffect_quiet _ _ _ _ hle, List.append_nil]

/-! ## The invariant -/

namespace Dialogue

/-- The first `k` answers are used: they have settled what their commands asked for, in order, and
the rest of the queue is open. -/
structure Agreement (p : Profile) (d : Dialogue) (k : Nat) : Prop where
  profile : d.exchange.transport.profile = p
  sentinel : d.exchange.transport.stdout.sentinel = p.sentinel.toList
  stderr : d.exchange.transport.stderr = []
  events : d.exchange.events = []
  written : d.exchange.written = d.commands.map p.wrap
  separate : ∀ a ∈ d.answers, a.Separate p.sentinel.toList
  answered : d.answers.length ≤ d.commands.length
  used : k ≤ d.answers.length
  pending : d.exchange.transport.pending = List.range' k (d.commands.length - k)
  outcomes : d.exchange.futures.outcomes =
    (d.answers.take k).map Answer.outcome ++ List.replicate (d.commands.length - k) .pending
  order : d.exchange.settled.map Prod.fst = List.range k
  results : d.exchange.settled.map Prod.snd = (d.answers.take k).map Answer.outcome
  stream : ∃ lead, IsLead lead ∧ d.exchange.transport.stdout.text ++ d.inFlight =
    lead ++ (d.answers.drop k).flatMap (Answer.output p.sentinel.toList)
  clean : cutAt? p.sentinel.toList d.exchange.transport.stdout.text = none

theorem start_agreement {p : Profile} {t : Transport} (h : Transport.new? p = some t) :
    Agreement p (start t) 0 := by
  obtain ⟨b, hb, rfl⟩ := Option.map_eq_some_iff.1 h
  unfold SentinelBuffer.new? at hb
  split at hb
  · rename_i hne
    cases hb
    exact
      { profile := rfl, sentinel := rfl, stderr := rfl, events := rfl, written := rfl, pending := rfl,
        outcomes := rfl, order := rfl, results := rfl
        separate := fun a ha => absurd ha List.not_mem_nil
        answered := le_refl _
        used := le_refl _
        stream := ⟨[], .inl rfl, rfl⟩
        clean := by simp [start, Exchange.start, SentinelBuffer.text, cutAt?, hne] }
  · cases hb

/-- Sending puts the command's name at the end of the queue and its line at the end of the lines. -/
theorem send_agreement {p : Profile} {d : Dialogue} {k : Nat} (h : Agreement p d k) (command : String) :
    Agreement p (d.send command) k := by
  have hk : k ≤ d.commands.length := h.used.trans h.answered
  have hlen : d.exchange.futures.outcomes.length = d.commands.length := by
    rw [h.outcomes, List.length_append, List.length_map, List.length_take, List.length_replicate,
      Nat.min_eq_left h.used, Nat.add_sub_cancel' hk]
  have hnext : d.commands.length + 1 - k = d.commands.length - k + 1 := by omega
  have hcount : (d.send command).commands.length = d.commands.length + 1 := List.length_append
  refine
    { profile := h.profile, sentinel := h.sentinel, stderr := h.stderr, events := h.events,
      separate := h.separate, used := h.used, order := h.order, results := h.results,
      stream := h.stream, clean := h.clean, written := ?_, answered := ?_, pending := ?_, outcomes := ?_ }
  · show d.exchange.written ++ [d.exchange.transport.profile.wrap command] = _
    rw [h.written, h.profile, send, List.map_append]
    rfl
  · exact h.answered.trans (by rw [hcount]; omega)
  · show d.exchange.transport.pending ++ [d.exchange.futures.outcomes.length] = _
    rw [hcount, hnext, List.range'_1_concat, h.pending, hlen, Nat.add_sub_cancel' hk]
  · show d.exchange.futures.outcomes ++ [.pending] = _
    rw [hcount, hnext, List.replicate_succ', h.outcomes, List.append_assoc]
    rfl

/-- An answer goes to the end of the stream. -/
theorem answer_agreement {p : Profile} {d : Dialogue} {k : Nat} (h : Agreement p d k) {a : Answer}
    (hread : d.answers.length < d.exchange.written.length) (ha : a.Separate p.sentinel.toList) :
    Agreement p (d.answer p a) k := by
  have htake : (d.answers ++ [a]).take k = d.answers.take k := List.take_append_of_le_length h.used
  have hwritten : d.exchange.written.length = d.commands.length := by rw [h.written, List.length_map]
  have hcount : (d.answer p a).answers.length = d.answers.length + 1 := List.length_append
  refine
    { profile := h.profile, sentinel := h.sentinel, stderr := h.stderr, events := h.events,
      written := h.written, pending := h.pending, order := h.order, clean := h.clean,
      separate := ?_, answered := ?_, used := ?_, outcomes := ?_, results := ?_, stream := ?_ }
  · intro b hb
    rcases List.mem_append.1 hb with hb | hb
    · exact h.separate b hb
    · rw [List.mem_singleton.1 hb]; exact ha
  · rw [hcount, ← Nat.lt_iff_add_one_le]
    exact hwritten ▸ hread
  · rw [hcount]; exact h.used.trans (Nat.le_succ _)
  · show _ = ((d.answers ++ [a]).take k).map _ ++ _
    rw [htake]; exact h.outcomes
  · show _ = ((d.answers ++ [a]).take k).map _
    rw [htake]; exact h.results
  · obtain ⟨lead, hlead, hstream⟩ := h.stream
    refine ⟨lead, hlead, ?_⟩
    show d.exchange.transport.stdout.text ++ (d.inFlight ++ a.output p.sentinel.toList) =
      lead ++ ((d.answers ++ [a]).drop k).flatMap _
    rw [List.drop_append_of_le_length h.used, List.flatMap_append, ← List.append_assoc, hstream]
    simp

/-- A part of the output brings the texts of the next few answers, and the stream goes on with the
others. -/
theorem Agreement.takes {p : Profile} {d : Dialogue} {k : Nat} (h : Agreement p d k)
    (hs : SplitsLines p.sentinel.toList) {chunk rest : List Char} (hcut : d.inFlight = chunk ++ rest)
    {bodies : List (List Char)} {stdout : SentinelBuffer}
    (htake : (d.exchange.transport.stdout.append chunk).takeAll = (bodies, stdout)) :
    k + bodies.length ≤ d.answers.length ∧
      (d.answers.take (k + bodies.length)).map Answer.outcome =
        (d.answers.take k).map Answer.outcome ++ bodies.map (fun b => .done (normalize b)) ∧
      ∃ lead, IsLead lead ∧ stdout.text ++ rest =
        lead ++ (d.answers.drop (k + bodies.length)).flatMap (Answer.output p.sentinel.toList) := by
  rw [SentinelBuffer.append_takeAll] at htake
  cases htake
  obtain ⟨lead, hlead, hstream⟩ := h.stream
  obtain ⟨j, hj, lead', hlead', hbodies, hleft⟩ :=
    responses_stream d.exchange.transport.stdout.nonempty (h.sentinel ▸ hs) (d.answers.drop k)
      (fun a ha => h.sentinel ▸ h.separate a (List.mem_of_mem_drop ha)) lead
      (d.exchange.transport.stdout.text ++ chunk) rest hlead
      (by rw [List.append_assoc, ← hcut, hstream, h.sentinel])
  have hcount : (responses d.exchange.transport.stdout.sentinel d.exchange.transport.stdout.nonempty
      (d.exchange.transport.stdout.text ++ chunk)).1.length = j := by
    have hlen := congrArg List.length hbodies
    rw [List.length_map, List.length_map, List.length_take, Nat.min_eq_left hj] at hlen
    exact hlen
  have hused := h.used
  rw [List.length_drop] at hj
  rw [hcount]
  refine ⟨by omega, ?_, lead', hlead', ?_⟩
  · have houtcomes := congrArg (List.map Outcome.done) hbodies
    rw [List.map_map, List.map_map] at houtcomes
    rw [List.take_add, List.map_append]
    exact congrArg _ houtcomes.symm
  · rw [SentinelBuffer.holding_text, ← List.drop_drop, ← h.sentinel]
    exact hleft

/-- A part of the output settles as many answers as it brings whole responses. -/
theorem deliver_agreement {p : Profile} {d : Dialogue} {k : Nat} (hs : SplitsLines p.sentinel.toList)
    (h : Agreement p d k) {chunk rest : List Char} (hcut : d.inFlight = chunk ++ rest) :
    ∃ k', Agreement p (d.deliver chunk rest) k' := by
  obtain ⟨bodies, stdout, htake⟩ :
      ∃ bodies stdout, (d.exchange.transport.stdout.append chunk).takeAll = (bodies, stdout) := ⟨_, _, rfl⟩
  obtain ⟨hused, houtcomes, hstream⟩ := h.takes hs hcut htake
  have hlen : ((d.answers.take k).map Answer.outcome).length = k := by
    rw [List.length_map, List.length_take, Nat.min_eq_left h.used]
  have hle : bodies.length ≤ d.commands.length - k := by
    have := h.answered
    omega
  have hstdout : stdout = (d.exchange.transport.stdout.append chunk).takeAll.2 := (Prod.ext_iff.1 htake).2.symm
  have hsame : stdout.sentinel = p.sentinel.toList := by rw [hstdout]; exact h.sentinel
  have hfed := Exchange.feed_quiet h.stderr (hlen.symm ▸ h.pending) h.outcomes htake hle
  rw [hlen, Nat.sub_sub, ← houtcomes, h.profile] at hfed
  have hact : (d.deliver chunk rest).exchange = d.exchange.feed chunk := rfl
  refine ⟨k + bodies.length,
    { separate := h.separate, answered := h.answered, used := hused, profile := ?_, sentinel := ?_,
      stderr := ?_, events := ?_, written := ?_, pending := ?_, outcomes := ?_, order := ?_, results := ?_,
      stream := ?_, clean := ?_ }⟩
  all_goals rw [hact, hfed]
  · exact h.profile
  · exact hsame
  · exact h.stderr
  · exact h.events
  · exact h.written
  · rfl
  · rfl
  · show (d.exchange.settled ++ _).map _ = _
    rw [List.map_append, h.order, Transport.quietCompletions_future, List.range_add, List.range'_eq_map_range]
  · show (d.exchange.settled ++ _).map _ = (d.answers.take _).map _
    rw [List.map_append, h.results, Transport.quietCompletions_outcome, houtcomes]
  · exact hstream
  · show cutAt? _ stdout.text = none
    rw [← hsame, hstdout]
    exact SentinelBuffer.takeAll_rest (d.exchange.transport.stdout.append chunk)

theorem step_agreement {p : Profile} {d d' : Dialogue} {k : Nat} (hs : SplitsLines p.sentinel.toList)
    (h : Agreement p d k) (step : Step p d d') : ∃ k', Agreement p d' k' := by
  cases step with
  | send command => exact ⟨k, send_agreement h command⟩
  | answer a hread ha => exact ⟨k, answer_agreement h hread ha⟩
  | deliver chunk rest hcut => exact deliver_agreement hs h hcut

theorem reachable_agreement {p : Profile} {d : Dialogue} (hs : SplitsLines p.sentinel.toList)
    (h : Reachable p d) : ∃ k, Agreement p d k := by
  induction h with
  | start h => exact ⟨0, start_agreement h⟩
  | next _ step ih =>
    obtain ⟨k, hk⟩ := ih
    exact step_agreement hs hk step

/-- When nothing is in flight, all answers given are used. -/
theorem Agreement.used_all {p : Profile} {d : Dialogue} {k : Nat} (h : Agreement p d k)
    (hs : SplitsLines p.sentinel.toList) (hflight : d.inFlight = []) : k = d.answers.length := by
  by_contra hne
  have hlt : k < d.answers.length := lt_of_le_of_ne h.used hne
  obtain ⟨lead, hlead, hstream⟩ := h.stream
  -- the next answer is whole in the buffer, so a response could be taken
  have hcut := cutAt?_answer hs hlead (h.separate _ (List.getElem_mem hlt))
    ((d.answers.drop (k + 1)).flatMap (Answer.output p.sentinel.toList))
  rw [hflight, List.append_nil, List.drop_eq_getElem_cons hlt, List.flatMap_cons] at hstream
  rw [← hstream, h.clean] at hcut
  cases hcut

theorem splitsLines_of_registered {windows : Bool} {name : String} {p : Profile}
    (hp : Profile.ofName? windows name = some p) : SplitsLines p.sentinel.toList := by
  have hsentinel : p.sentinel = Profile.endOfCommand := by
    unfold Profile.ofName? at hp
    split at hp
    · cases hp; rfl
    · split at hp
      · cases hp; rfl
      · cases hp
  rw [hsentinel]
  exact ⟨'_', _, rfl, by decide, by decide⟩

/-- The lines written are the commands' lines in the order of sending, and some first answers are
used: each has settled what its own command asked for, one after the other, by its own text, while
the rest of the queue waits. With nothing in flight these are all answers, so once every line is
answered the queue is empty and every command has its answer. -/
theorem answers_agree {windows : Bool} {name : String} {p : Profile} {d : Dialogue}
    (hp : Profile.ofName? windows name = some p) (h : Reachable p d) :
    ∃ k ≤ d.answers.length,
      d.exchange.written = d.commands.map p.wrap ∧
      d.exchange.futures.outcomes = (d.answers.take k).map (fun a => .done (normalize a.body)) ++
        List.replicate (d.commands.length - k) .pending ∧
      d.exchange.settled.map Prod.fst = List.range k ∧
      d.exchange.settled.map Prod.snd = (d.answers.take k).map (fun a => .done (normalize a.body)) ∧
      d.exchange.transport.pending = List.range' k (d.commands.length - k) ∧
      d.exchange.events = [] ∧
      (d.inFlight = [] → k = d.answers.length) ∧
      (d.inFlight = [] → d.answers.length = d.commands.length →
        d.exchange.transport.pending = [] ∧
        d.exchange.futures.outcomes = d.answers.map fun a => .done (normalize a.body)) := by
  have hs := splitsLines_of_registered hp
  obtain ⟨k, hk⟩ := reachable_agreement hs h
  refine ⟨k, hk.used, hk.written, hk.outcomes, hk.order, hk.results, hk.pending, hk.events, hk.used_all hs,
    fun hflight hall => ?_⟩
  obtain rfl := hk.used_all hs hflight
  refine ⟨?_, ?_⟩
  · rw [hk.pending, hall, Nat.sub_self]
    rfl
  · rw [hk.outcomes, hall, Nat.sub_self, List.take_of_length_le hall.le, List.replicate_zero, List.append_nil]
    rfl

/-- Two commands are sent at once, and their answers come cut inside the first sentinel. -/
theorem answers_agree_cut_inside :
    ∃ d : Dialogue, Profile.ofName? false "sh" = some .sh ∧ Reachable .sh d ∧
      d.commands = ["pwd", "ls"] ∧ d.exchange.transport.pending = [] ∧
      d.exchange.futures.outcomes = [.done ['/'], .done ['a', ' ', 'b']] := by
  obtain ⟨t, ht⟩ : ∃ t, Transport.new? .sh = some t := ⟨_, rfl⟩
  let first : Answer := ⟨['/', '\n'], .lineFeed⟩
  let second : Answer := ⟨['a', ' ', 'b'], .returnLineFeed⟩
  let asked := ((start t).send "pwd").send "ls"
  let answered := (asked.answer .sh first).answer .sh second
  let early := answered.deliver (answered.inFlight.take 9) (answered.inFlight.drop 9)
  let late := early.deliver early.inFlight []
  have hasked : Reachable .sh asked := .next (.next (.start ht) (.send _ "pwd")) (.send _ "ls")
  have hfirst : first.Separate Profile.sh.sentinel.toList :=
    (cutAt?_eq_some_iff.1 (by decide : cutAt? _ _ = some (first.body, []))).2
  have hsecond : second.Separate Profile.sh.sentinel.toList :=
    (cutAt?_eq_some_iff.1 (by decide : cutAt? _ _ = some (second.body, []))).2
  have hanswered : Reachable .sh answered :=
    .next (.next hasked (.answer _ first (show 0 < 2 by decide) hfirst))
      (.answer _ second (show 1 < 2 by decide) hsecond)
  have hlate : Reachable .sh late :=
    .next (.next hanswered (.deliver _ _ _ (List.take_append_drop 9 _).symm))
      (.deliver _ _ _ (List.append_nil _).symm)
  obtain ⟨-, -, -, -, -, -, -, -, -, hall⟩ := @answers_agree false "sh" .sh late rfl hlate
  exact ⟨late, rfl, hlate, rfl, (hall rfl rfl).1, (hall rfl rfl).2⟩

end Dialogue
end ScriptTree.Interpreter
