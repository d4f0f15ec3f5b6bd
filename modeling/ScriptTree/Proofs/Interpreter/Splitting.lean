/-
A buffer over a whole run, in which text is appended and responses are asked for in any order. At each point
the text appended so far is the bodies given, each with the sentinel behind it, and the text that is kept; in a
body with its sentinel the sentinel is found nowhere earlier; and no response is to be had exactly while the
text kept holds no sentinel. A text splits in one way only into such bodies and a rest without a sentinel, so
in the end neither the parts in which it came nor the times at which responses were asked for matter
(`run_lossless`).
-/
import ScriptTree.Proofs.Interpreter.Sentinel

namespace ScriptTree.Interpreter

open Text

/-! ## Splitting a text -/

/-- A text is some bodies, each with a sentinel behind it which is the first there, and a rest. -/
structure Splits (sentinel text : List Char) (bodies : List (List Char)) (rest : List Char) : Prop where
  whole : text = bodies.flatMap (· ++ sentinel) ++ rest
  first : ∀ body ∈ bodies, FirstAt sentinel (body ++ sentinel) body.length

namespace Splits

variable {sentinel text rest rest' : List Char} {bodies bodies' : List (List Char)}

theorem start (sentinel text : List Char) : Splits sentinel text [] text :=
  ⟨rfl, fun _ h => absurd h List.not_mem_nil⟩

/-- What comes later belongs to the rest. -/
theorem append (h : Splits sentinel text bodies rest) (more : List Char) :
    Splits sentinel (text ++ more) bodies (rest ++ more) :=
  ⟨by rw [h.whole, List.append_assoc], h.first⟩

/-- A body cut off the rest is the next one. -/
theorem cut (h : Splits sentinel text bodies rest) {body : List Char}
    (hcut : cutAt? sentinel rest = some (body, rest')) : Splits sentinel text (bodies ++ [body]) rest' := by
  obtain ⟨hrest, hfirst⟩ := cutAt?_eq_some_iff_body.1 hcut
  refine ⟨by rw [h.whole, hrest]; simp, fun b hb => ?_⟩
  rcases List.mem_append.1 hb with hb | hb
  · exact h.first b hb
  · rw [List.mem_singleton.1 hb]
    exact hfirst

/-- The bodies are the first responses of the text, and its other responses are those of the rest. -/
theorem responses_eq (nonempty : sentinel ≠ []) (h : Splits sentinel text bodies rest) :
    responses sentinel nonempty text =
      (bodies ++ (responses sentinel nonempty rest).1, (responses sentinel nonempty rest).2) := by
  induction bodies generalizing text with
  | nil => rw [h.whole]; rfl
  | cons body bodies ih =>
    have hcut : cutAt? sentinel text = some (body, bodies.flatMap (· ++ sentinel) ++ rest) := by
      refine cutAt?_eq_some_iff_body.2 ⟨?_, h.first body List.mem_cons_self⟩
      rw [h.whole, List.flatMap_cons, List.append_assoc]
    rw [responses_of_some nonempty hcut, ih ⟨rfl, fun b hb => h.first b (List.mem_cons_of_mem _ hb)⟩]
    rfl

/-- There is one way to split a text off to the end. -/
theorem unique (nonempty : sentinel ≠ []) (h : Splits sentinel text bodies rest)
    (h' : Splits sentinel text bodies' rest') (hrest : ¬ sentinel <:+: rest) (hrest' : ¬ sentinel <:+: rest') :
    bodies = bodies' ∧ rest = rest' := by
  have hsame := (h.responses_eq nonempty).symm.trans (h'.responses_eq nonempty)
  rw [responses_of_none nonempty (cutAt?_eq_none_iff.2 hrest),
    responses_of_none nonempty (cutAt?_eq_none_iff.2 hrest')] at hsame
  simpa using hsame

end Splits

namespace SentinelBuffer

/-! ## The run of a buffer -/

/-- What can happen to a buffer. -/
inductive Act where
  /-- Text comes. -/
  | append (text : List Char)
  /-- A response is asked for. -/
  | take
  deriving DecidableEq, Repr

/-- The text that comes in an act. -/
def Act.text : Act → List Char
  | .append text => text
  | .take => []

/-- All the text that comes in some acts. -/
def appended (acts : List Act) : List Char :=
  acts.flatMap Act.text

/-- One act: the body that it gives, if it does, and the buffer after it. -/
def act (b : SentinelBuffer) : Act → List (List Char) × SentinelBuffer
  | .append text => ([], b.append text)
  | .take => (b.take.1.toList, b.take.2)

/-- Acts one after the other: the bodies that they give, and the buffer after them. -/
def run (b : SentinelBuffer) : List Act → List (List Char) × SentinelBuffer
  | [] => ([], b)
  | a :: acts => ((b.act a).1 ++ ((b.act a).2.run acts).1, ((b.act a).2.run acts).2)

/-- After these acts no response is to be had. -/
def Drained (b : SentinelBuffer) (acts : List Act) : Prop :=
  (b.run acts).2.take.1 = none

theorem run_append (b : SentinelBuffer) (acts more : List Act) :
    b.run (acts ++ more) = ((b.run acts).1 ++ ((b.run acts).2.run more).1, ((b.run acts).2.run more).2) := by
  induction acts generalizing b with
  | nil => rfl
  | cons a acts ih => simp only [List.cons_append, run, ih, List.append_assoc]

/-! ## Nothing is lost -/

theorem take_eq_none_iff (b : SentinelBuffer) : b.take.1 = none ↔ ¬ b.sentinel <:+: b.text := by
  rw [← cutAt?_eq_none_iff]
  cases hcut : cutAt? b.sentinel b.text with
  | none => simp [take_of_none hcut]
  | some p => simp [take_of_some hcut]

/-- An act keeps the sentinel, and the text that has come is split as before or one body further. -/
theorem act_splits {b : SentinelBuffer} {text : List Char} {bodies : List (List Char)}
    (h : Splits b.sentinel text bodies b.text) (a : Act) :
    (b.act a).2.sentinel = b.sentinel ∧
      Splits b.sentinel (text ++ a.text) (bodies ++ (b.act a).1) (b.act a).2.text := by
  cases a with
  | append more =>
    refine ⟨rfl, ?_⟩
    show Splits b.sentinel (text ++ more) (bodies ++ []) (b.append more).text
    rw [append_text, List.append_nil]
    exact h.append more
  | take =>
    show b.take.2.sentinel = _ ∧ Splits b.sentinel (text ++ []) (bodies ++ b.take.1.toList) b.take.2.text
    rw [List.append_nil]
    cases hcut : cutAt? b.sentinel b.text with
    | none =>
      rw [take_of_none hcut]
      refine ⟨rfl, ?_⟩
      simpa [join] using h
    | some p =>
      rw [take_of_some hcut]
      refine ⟨rfl, ?_⟩
      simpa using h.cut hcut

theorem run_splits {b : SentinelBuffer} {text : List Char} {bodies : List (List Char)}
    (h : Splits b.sentinel text bodies b.text) (acts : List Act) :
    (b.run acts).2.sentinel = b.sentinel ∧
      Splits b.sentinel (text ++ appended acts) (bodies ++ (b.run acts).1) (b.run acts).2.text := by
  -- from any point of a run on, with what came and what was given up to there
  induction acts generalizing b text bodies with
  | nil => exact ⟨rfl, by simpa [run, appended] using h⟩
  | cons a acts ih =>
    obtain ⟨hsentinel, hact⟩ := act_splits h a
    -- the next buffer has the same sentinel, but not by computation when a response is asked for
    rw [← hsentinel] at hact
    obtain ⟨hkept, hrun⟩ := ih hact
    refine ⟨hkept.trans hsentinel, ?_⟩
    rw [hsentinel, List.append_assoc, List.append_assoc] at hrun
    exact hrun

/-- All responses are what is given when responses are asked for until there is none. -/
theorem run_takes (b : SentinelBuffer) :
    b.run (List.replicate (b.takeAll.1.length + 1) .take) = b.takeAll := by
  induction hn : b.text.length using Nat.strong_induction_on generalizing b with
  | _ n ih =>
    cases hcut : cutAt? b.sentinel b.text with
    | none =>
      rw [takeAll_of_none hcut]
      show (b.take.1.toList ++ [], b.take.2) = _
      rw [take_of_none hcut]
      rfl
    | some p =>
      obtain ⟨body, rest⟩ := p
      have hlt : (b.holding rest).text.length < n := by
        rw [holding_text, ← hn]
        exact cutAt?_length b.nonempty hcut
      have hrest := ih _ hlt (b.holding rest) rfl
      rw [takeAll_of_some hcut, List.length_cons, List.replicate_succ]
      show (b.take.1.toList ++ (b.take.2.run _).1, (b.take.2.run _).2) = _
      rw [take_of_some hcut, hrest]
      rfl

/-- A buffer gives what it is given, cut at its sentinels. -/
structure Lossless (b : SentinelBuffer) : Prop where
  /-- At each point the text is the bodies given, each with its sentinel, and the text kept. -/
  splits : ∀ acts, Splits b.sentinel (appended acts) (b.run acts).1 (b.run acts).2.text
  /-- There is no response just while no sentinel is kept. -/
  none_iff : ∀ acts, (b.run acts).2.take.1 = none ↔ ¬ b.sentinel <:+: (b.run acts).2.text
  /-- There is none after it has been asked for often enough. -/
  drains : ∀ acts, ∃ n, b.Drained (acts ++ List.replicate n .take)
  /-- Then the bodies depend on the text alone. -/
  determined : ∀ acts acts', appended acts = appended acts' → b.Drained acts → b.Drained acts' →
    (b.run acts).1 = (b.run acts').1 ∧ (b.run acts).2.text = (b.run acts').2.text

/-- A buffer without text is so, whether it is new or was cleared. -/
theorem lossless_of_text {b : SentinelBuffer} (h : b.text = []) : b.Lossless := by
  have hstart : Splits b.sentinel [] [] b.text := h ▸ .start b.sentinel []
  have hsplits (acts : List Act) : Splits b.sentinel (appended acts) (b.run acts).1 (b.run acts).2.text :=
    (run_splits hstart acts).2
  have hnone (acts : List Act) : (b.run acts).2.take.1 = none ↔ ¬ b.sentinel <:+: (b.run acts).2.text := by
    rw [take_eq_none_iff, (run_splits hstart acts).1]
  refine ⟨hsplits, hnone, fun acts => ⟨(b.run acts).2.takeAll.1.length + 1, ?_⟩, ?_⟩
  · show (b.run (acts ++ _)).2.take.1 = none
    rw [run_append, run_takes, take_eq_none_iff]
    exact cutAt?_eq_none_iff.1 (takeAll_rest (b.run acts).2)
  · intro acts acts' htext hdrained hdrained'
    have hsame := hsplits acts'
    rw [← htext] at hsame
    exact (hsplits acts).unique b.nonempty hsame ((hnone acts).1 hdrained) ((hnone acts').1 hdrained')

/-- For every sentinel there is a buffer, and however text is appended to it and responses are asked for, it
loses nothing. -/
theorem run_lossless {s : String} (hs : s ≠ "") :
    ∃ b, new? s = some b ∧ b.sentinel = s.toList ∧ b.Lossless := by
  have hchars : s.toList ≠ [] := fun hnil => hs (String.toList_eq_nil_iff.1 hnil)
  exact ⟨⟨s.toList, hchars, [], []⟩, dif_pos hchars, rfl, lossless_of_text rfl⟩

/-- A sentinel that overlaps itself, in a text with two places for it that overlap: the first is the one, also
if the text comes cut inside it and is asked for too early. -/
theorem run_lossless_overlapping :
    let whole : List Act := [.append ['b', 'a', 'a', 'a', 'b', 'a', 'a'], .take, .take]
    let cut : List Act :=
      [.append ['b', 'a'], .take, .append ['a'], .append [], .append ['a'], .take, .append ['b', 'a'], .take,
        .append ['a'], .take, .take]
    "aa" ≠ "" ∧ ∃ b, new? "aa" = some b ∧ b.Drained cut ∧
      (b.run cut).1 = (b.run whole).1 ∧ (b.run whole).1 = [['b'], ['a', 'b']] := by
  intro whole cut
  obtain ⟨b, hb, -, hlossless⟩ := run_lossless (s := "aa") (by decide)
  have hnew : new? "aa" = some ⟨['a', 'a'], by decide, [], []⟩ := by cbv
  obtain rfl := Option.some.inj (hnew.symm.trans hb)
  have hcut : Drained ⟨['a', 'a'], by decide, [], []⟩ cut := by unfold Drained; decide
  have hwhole : Drained ⟨['a', 'a'], by decide, [], []⟩ whole := by unfold Drained; decide
  exact ⟨by decide, _, hnew, hcut, (hlossless.determined cut whole rfl hcut hwhole).1, by decide⟩

end SentinelBuffer
end ScriptTree.Interpreter
