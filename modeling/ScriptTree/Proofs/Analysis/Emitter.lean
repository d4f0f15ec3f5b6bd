/-
Observers that change the subscriptions while a value is on its way to them. What a listener does is a program
(`Routine`): it may subscribe, end any subscription, fire another value, and fail. Whatever happens is recorded.
The subscriptions and their handles are at all times what the record before makes them (`Channel.after`), so
what is left is to see where the calls of a fire come from: a program makes no call for a fire that had begun
before it, and every fire that begins meanwhile is over when the program is (`Grows`). The programs of the
listeners grow the record in that way for as deep as fires are nested, and therefore every run is
`Faithful`.
-/
import Mathlib.Data.Finset.Card
import ScriptTree.Analysis.Emitter

namespace ScriptTree.Analysis.Emitter

/-- What becomes of the world does not depend on whether a listener fails. -/
theorem attempt_eq {ε ω : Type} (call : ω → Except ε Unit × ω) (world : ω) :
    attempt call world = (call world).2 := by
  unfold attempt
  split <;> rename_i heq <;> rw [heq]

/-! ## What happens -/

/-- What happens to subscriptions. They are told apart by the number of those made before, as are fires. -/
inductive Event (ι α : Type) where
  | subscribed (listener : ι)
  | disposed (id : Nat)
  | fired (value : α)
  /-- A listener is called for a fire. -/
  | called (fire : Nat) (listener : ι) (value : α)

namespace Event

variable {ι α : Type}

def listener? : Event ι α → Option ι
  | .subscribed l => some l
  | _ => none

def disposed? : Event ι α → Option Nat
  | .disposed id => some id
  | _ => none

def value? : Event ι α → Option α
  | .fired v => some v
  | _ => none

def call? : Event ι α → Option (Nat × ι × α)
  | .called k l v => some (k, l, v)
  | _ => none

end Event

variable {ι α : Type}

/-- The listeners of the subscriptions made. -/
def made (h : List (Event ι α)) : List ι :=
  h.filterMap Event.listener?

/-- The numbers of the subscriptions that were to be ended, once for each time. -/
def ended (h : List (Event ι α)) : List Nat :=
  h.filterMap Event.disposed?

/-- The number of fires. -/
def fires (h : List (Event ι α)) : Nat :=
  (h.filterMap Event.value?).length

/-- The calls made for a fire, in order. -/
def callsOf (k : Nat) (h : List (Event ι α)) : List (ι × α) :=
  ((h.filterMap Event.call?).filter (·.1 = k)).map Prod.snd

/-- The subscriptions that were made and not ended, in the order in which they were made. -/
def live (h : List (Event ι α)) : List (Nat × ι) :=
  ((made h).mapIdx Prod.mk).filter (·.1 ∉ ended h)

/-- Only subscriptions that were made are ended. -/
def EndsMade (h : List (Event ι α)) : Prop :=
  ∀ id ∈ ended h, id < (made h).length

section

variable (g h : List (Event ι α)) (l : ι) (id k : Nat) (v : α)

theorem made_append : made (g ++ h) = made g ++ made h :=
  List.filterMap_append

theorem ended_append : ended (g ++ h) = ended g ++ ended h :=
  List.filterMap_append

theorem fires_append : fires (g ++ h) = fires g + fires h := by
  rw [fires, List.filterMap_append, List.length_append]
  rfl

theorem callsOf_append : callsOf k (g ++ h) = callsOf k g ++ callsOf k h := by
  rw [callsOf, List.filterMap_append, List.filter_append, List.map_append]
  rfl

theorem callsOf_called (i : Nat) : callsOf i [.called k l v] = if i = k then [(l, v)] else [] := by
  by_cases h : i = k
  · subst h
    simp [callsOf, Event.call?]
  · simp [callsOf, Event.call?, h, Ne.symm h]

variable {h} in
theorem made_concat {e : Event ι α} (he : e.listener? = none) : made (h ++ [e]) = made h := by
  rw [made_append, made, made, List.filterMap_cons_none he, List.filterMap_nil, List.append_nil]

variable {h} in
theorem ended_concat {e : Event ι α} (he : e.disposed? = none) : ended (h ++ [e]) = ended h := by
  rw [ended_append, ended, ended, List.filterMap_cons_none he, List.filterMap_nil, List.append_nil]

variable {h id} in
theorem mem_ended_disposed {i : Nat} : i ∈ ended (h ++ [.disposed id]) ↔ i ∈ ended h ∨ i = id := by
  rw [ended_append, List.mem_append]
  exact or_congr_right List.mem_singleton

theorem subscriptions_ids : ((made h).mapIdx Prod.mk).map Prod.fst = List.range (made h).length := by
  refine List.ext_getElem ?_ fun i hi hj => ?_
  · rw [List.length_map, List.length_mapIdx, List.length_range]
  · rw [List.getElem_map, List.getElem_mapIdx, List.getElem_range]

theorem live_nodup : ((live h).map Prod.fst).Nodup := by
  refine List.Nodup.sublist (List.filter_sublist.map _) ?_
  rw [subscriptions_ids]
  exact List.nodup_range

end

/-- Those who hold are as many as were made, without those ended. -/
theorem live_length {h : List (Event ι α)} (hends : EndsMade h) :
    (live h).length + (ended h).toFinset.card = (made h).length := by
  have hsame : ((List.range (made h).length).filter (· ∈ ended h)).toFinset = (ended h).toFinset := by
    ext id
    simp only [List.mem_toFinset, List.mem_filter, List.mem_range, decide_eq_true_eq]
    exact ⟨And.right, fun hid => ⟨hends id hid, hid⟩⟩
  have hlive : (live h).length = ((List.range (made h).length).filter (· ∉ ended h)).length := by
    rw [← subscriptions_ids, List.filter_map, List.length_map]
    rfl
  have hall : (List.range (made h).length).length = _ :=
    List.length_eq_length_filter_add (· ∈ ended h)
  rw [List.length_range] at hall
  rw [hlive, ← hsame, List.toFinset_card_of_nodup (List.nodup_range.filter _)]
  simp only [decide_not] at hall ⊢
  omega

theorem live_disposed (h : List (Event ι α)) (id : Nat) :
    live (h ++ [.disposed id]) = (live h).filter (·.1 != id) := by
  rw [live, live, List.filter_filter, made_concat rfl]
  refine List.filter_congr fun p _ => ?_
  simp only [mem_ended_disposed, not_or, Bool.decide_and, bne, beq_eq_decide, decide_not, Bool.and_comm]

/-- A subscription that holds is taken out of the others. -/
theorem live_disposed_split {h : List (Event ι α)} {id : Nat} (hid : id < (made h).length)
    (hholds : id ∉ ended h) :
    ∃ l older younger, live h = older ++ (id, l) :: younger ∧ live (h ++ [.disposed id]) = older ++ younger := by
  have hmem : (id, (made h)[id]) ∈ live h :=
    List.mem_filter.2 ⟨List.mem_mapIdx.2 ⟨id, hid, rfl⟩, decide_eq_true hholds⟩
  obtain ⟨older, younger, hsplit⟩ := List.append_of_mem hmem
  refine ⟨_, older, younger, hsplit, ?_⟩
  have hids := live_nodup h
  rw [hsplit, List.map_append, List.map_cons, List.nodup_middle, List.nodup_cons, ← List.map_append] at hids
  have hothers : ∀ p ∈ older ++ younger, (p.1 != id) = true := by
    intro p hp
    rw [bne_iff_ne]
    exact fun heq => hids.1 (List.mem_map.2 ⟨p, hp, heq⟩)
  rw [live_disposed, hsplit, List.filter_append, List.filter_cons_of_neg (by simp), ← List.filter_append]
  exact List.filter_eq_self.2 hothers

/-! ## The subscriptions after some events -/

/-- An emitter and the handles of all subscriptions made to it. -/
structure Channel (ι : Type) where
  emitter : Emitter ι
  handles : List Subscription

namespace Channel

/-- No subscriptions. -/
def empty : Channel ι where
  emitter := Emitter.empty
  handles := []

/-- Subscribes a listener. -/
def subscribe (c : Channel ι) (l : ι) : Channel ι :=
  let (handle, emitter) := c.emitter.subscribe l
  { emitter, handles := c.handles ++ [handle] }

/-- Ends a subscription by its handle. -/
def dispose (c : Channel ι) (id : Nat) (handle : Subscription) : Channel ι :=
  let (handle, emitter) := handle.dispose c.emitter
  { emitter, handles := c.handles.set id handle }

/-- The subscriptions and the handles that some events leave. -/
def after (h : List (Event ι α)) : Channel ι where
  emitter := { nextId := (made h).length, listeners := live h }
  handles := (List.range (made h).length).map fun id => { id, isActive := id ∉ ended h }

variable {h : List (Event ι α)}

theorem after_subscribed (hends : EndsMade h) (l : ι) :
    after (h ++ [.subscribed l]) = (after h).subscribe l := by
  have hnew : (made h).length ∉ ended h := fun hid => Nat.lt_irrefl _ (hends _ hid)
  have hmade : made (h ++ [.subscribed l]) = made h ++ [l] := made_append h _
  have hended : ended (h ++ [.subscribed l]) = ended h := ended_concat rfl
  simp only [after, subscribe, Emitter.subscribe, live, hmade, hended, List.length_append,
    List.length_singleton, List.mapIdx_concat, List.filter_append, List.range_succ, List.map_append,
    List.map_singleton]
  simp [hnew]

theorem after_handle {id : Nat} (hid : id < (made h).length) :
    (after h).handles[id]? = some { id, isActive := id ∉ ended h } := by
  rw [after, List.getElem?_map, List.getElem?_range hid]
  rfl

/-- A handle that has ended its subscription does nothing more. -/
theorem dispose_inactive {c : Channel ι} {id : Nat} {handle : Subscription}
    (hhandle : c.handles[id]? = some handle) (hinactive : handle.isActive = false) : c.dispose id handle = c := by
  obtain ⟨hid, rfl⟩ := List.getElem?_eq_some_iff.1 hhandle
  rw [dispose, Subscription.dispose, if_neg (by rw [hinactive]; exact Bool.false_ne_true)]
  exact congrArg (Channel.mk c.emitter) (List.set_getElem_self hid)

theorem after_disposed_first {id : Nat} (hid : id ∉ ended h) :
    after (h ++ [.disposed id]) = (after h).dispose id { id, isActive := true } := by
  have hmade : made (h ++ [.disposed id]) = made h := made_concat rfl
  have hhandles :
      (after (h ++ [.disposed id])).handles = (after h).handles.set id { id, isActive := false } := by
    refine List.ext_getElem ?_ fun i hi hj => ?_
    · simp only [after, hmade, List.length_set, List.length_map]
    · simp only [after, List.getElem_set, List.getElem_map, List.getElem_range, mem_ended_disposed]
      split
      · subst_vars
        simp
      · next hne => simp [Ne.symm hne]
  calc after (h ++ [.disposed id])
      = { emitter := ⟨(made h).length, (live h).filter (·.1 != id)⟩
          handles := (after h).handles.set id { id, isActive := false } } := by
        rw [← live_disposed, ← hhandles, ← hmade]
        rfl
    _ = (after h).dispose id { id, isActive := true } := rfl

theorem after_disposed_again {id : Nat} (hid : id ∈ ended h) : after (h ++ [.disposed id]) = after h := by
  have hmade : made (h ++ [.disposed id]) = made h := made_concat rfl
  have hended : ∀ i, i ∈ ended (h ++ [.disposed id]) ↔ i ∈ ended h := fun i =>
    mem_ended_disposed.trans (or_iff_left_of_imp fun hi => hi ▸ hid)
  simp only [after, live, hmade, hended]

/-- What fires and calls leave as it is. -/
theorem after_other {e : Event ι α} (hlistener : e.listener? = none) (hdisposed : e.disposed? = none) :
    after (h ++ [e]) = after h := by
  simp only [after, live, made_concat hlistener, ended_concat hdisposed]

end Channel

/-! ## Programs of listeners -/

/-- Something that happened, with the subscriptions and the handles right after it. -/
structure Entry (ι α : Type) where
  event : Event ι α
  channel : Channel ι

/-- A channel in a world, and the record of what happened to it, the latest last. -/
structure Scene (ι α ω : Type) where
  channel : Channel ι
  rest : ω
  record : List (Entry ι α)

def events (record : List (Entry ι α)) : List (Event ι α) :=
  record.map Entry.event

theorem events_append (g h : List (Entry ι α)) : events (g ++ h) = events g ++ events h :=
  List.map_append

/-- What a listener does when it is called, and what is done from the outside. -/
inductive Routine (ι α ε ω : Type) where
  | done
  | fails (why : ε)
  | act (change : ω → ω) (next : Routine ι α ε ω)
  | look (next : Channel ι → ω → Routine ι α ε ω)
  /-- Subscribes a listener and goes on with the number of the subscription. -/
  | subscribe (listener : ι) (next : Nat → Routine ι α ε ω)
  /-- Ends a subscription by its handle, if there is one with that number. -/
  | dispose (id : Nat) (next : Routine ι α ε ω)
  | fire (value : α) (next : Routine ι α ε ω)

variable {ε ω : Type}

namespace Scene

/-- Nothing has happened. -/
def start (rest : ω) : Scene ι α ω where
  channel := .empty
  rest
  record := []

/-- Records something that happens, with what it makes of the channel. -/
def note (s : Scene ι α ω) (event : Event ι α) (channel : Channel ι) : Scene ι α ω :=
  { s with channel, record := s.record ++ [{ event, channel }] }

def subscribe (s : Scene ι α ω) (l : ι) : Scene ι α ω :=
  s.note (.subscribed l) (s.channel.subscribe l)

def dispose (s : Scene ι α ω) (id : Nat) : Scene ι α ω :=
  match s.channel.handles[id]? with
  | none => s
  | some handle => s.note (.disposed id) (s.channel.dispose id handle)

/-- What a listener does when it is called for a fire: first it records the call, then it serves the value. -/
def called (serve : ι → α → Scene ι α ω → Except ε Unit × Scene ι α ω) (k : Nat) (l : ι) (v : α) (s : Scene ι α ω) :
    Except ε Unit × Scene ι α ω :=
  serve l v (s.note (.called k l v) s.channel)

/-- Fires a value; `serve` is what a listener does with it. The record has a call only if the listener ran. -/
def fire (serve : ι → α → Scene ι α ω → Except ε Unit × Scene ι α ω) (v : α) (s : Scene ι α ω) : Scene ι α ω :=
  s.channel.emitter.fire (fun l v => attempt (called serve (fires (events s.record)) l v)) v
    (s.note (.fired v) s.channel)

end Scene

/-- Runs a program, up to where it fails. -/
def Routine.run (serve : ι → α → Scene ι α ω → Except ε Unit × Scene ι α ω) :
    Routine ι α ε ω → Scene ι α ω → Except ε Unit × Scene ι α ω
  | .done, s => (.ok (), s)
  | .fails why, s => (.error why, s)
  | .act change next, s => next.run serve { s with rest := change s.rest }
  | .look next, s => (next s.channel s.rest).run serve s
  | .subscribe l next, s => (next s.channel.handles.length).run serve (s.subscribe l)
  | .dispose id next, s => next.run serve (s.dispose id)
  | .fire v next, s => next.run serve (s.fire serve v)

/-- What listeners do that follow `conduct`. Fires can be nested up to a depth; a listener that is called
below it fails at once. -/
def serve (conduct : ι → α → Routine ι α ε ω) (limit : ε) :
    Nat → ι → α → Scene ι α ω → Except ε Unit × Scene ι α ω
  | 0, _, _, s => (.error limit, s)
  | depth + 1, l, v, s => (conduct l v).run (serve conduct limit depth) s

/-! ## What a program adds to the record -/

section

variable {β : Type} {xs ys before after : List β} {x m : β}

theorem append_eq_append_cons (h : xs ++ ys = before ++ m :: after) :
    (∃ middle, xs = before ++ m :: middle ∧ after = middle ++ ys) ∨
      ∃ middle, before = xs ++ middle ∧ ys = middle ++ m :: after := by
  rcases List.append_eq_append_iff.1 h with hlate | ⟨_ | ⟨c, middle⟩, rfl, htail⟩
  · exact .inr hlate
  · refine .inr ⟨[], ?_, htail.symm⟩
    rw [List.append_nil, List.append_nil]
  · obtain ⟨rfl, rfl⟩ := List.cons.inj htail
    exact .inl ⟨middle, rfl, rfl⟩

theorem singleton_eq_append_cons (h : [x] = before ++ m :: after) : before = [] ∧ x = m ∧ after = [] := by
  cases before with
  | nil =>
    obtain ⟨rfl, rfl⟩ := List.cons.inj h
    exact ⟨rfl, rfl, rfl⟩
  | cons y before =>
    have hrest : [] = before ++ m :: after := (List.cons.inj h).2
    exact absurd hrest (by simp)

end

/-- An entry that fits to what happened before. -/
structure Fits (h : List (Event ι α)) (m : Entry ι α) : Prop where
  channel : m.channel = .after (h ++ [m.event])
  ends : ∀ id, m.event = .disposed id → id < (made h).length
  calls : ∀ k l v, m.event = .called k l v → k < fires h

/-- The channel is what the record makes it. -/
structure Scene.Sound (s : Scene ι α ω) : Prop where
  channel : s.channel = .after (events s.record)
  ends : EndsMade (events s.record)

theorem EndsMade.append {e : Event ι α} {h : List (Event ι α)} (hends : EndsMade h)
    (he : ∀ id, e = .disposed id → id < (made h).length) : EndsMade (h ++ [e]) := by
  intro id hid
  have hmade : (made h).length ≤ (made (h ++ [e])).length := by
    rw [made_append, List.length_append]
    exact Nat.le_add_right _ _
  rw [ended_append, List.mem_append] at hid
  rcases hid with hid | hid
  · exact (hends id hid).trans_le hmade
  · refine (he id ?_).trans_le hmade
    cases e <;> simp_all [ended, Event.disposed?]

theorem Fits.sound {s : Scene ι α ω} {e : Event ι α} {c : Channel ι}
    (hfits : Fits (events s.record) ⟨e, c⟩) (hs : s.Sound) : (s.note e c).Sound where
  channel := by
    rw [Scene.note, events_append]
    exact hfits.channel
  ends := by
    rw [Scene.note, events_append]
    exact hs.ends.append hfits.ends

/-- A handle does to the channel what an entry of its use stands for. -/
theorem Scene.Sound.dispose {s : Scene ι α ω} (hs : s.Sound) {id : Nat} {handle : Subscription}
    (hhandle : s.channel.handles[id]? = some handle) :
    id < (made (events s.record)).length ∧
      Channel.after (events s.record ++ [.disposed id]) = s.channel.dispose id handle := by
  have hid : id < (made (events s.record)).length := by
    obtain ⟨hid, -⟩ := List.getElem?_eq_some_iff.1 hhandle
    rwa [hs.channel, Channel.after, List.length_map, List.length_range] at hid
  have hgot := hhandle
  rw [hs.channel, Channel.after_handle hid, Option.some_inj] at hgot
  subst hgot
  refine ⟨hid, ?_⟩
  by_cases hended : id ∈ ended (events s.record)
  · rw [Channel.after_disposed_again hended, Channel.dispose_inactive hhandle (by simp [hended]), hs.channel]
  · rw [Channel.after_disposed_first hended, hs.channel]
    simp [hended]

/-- Entries are added to the record: `own` are the calls among them for each fire that had begun before, and
every fire that begins among them has its calls there. -/
structure Grows (own : Nat → List (ι × α)) (new : List (Entry ι α)) (s s' : Scene ι α ω) : Prop where
  record : s'.record = s.record ++ new
  sound : s'.Sound
  fits : ∀ before m after, new = before ++ m :: after → Fits (events (s.record ++ before)) m
  older : ∀ k < fires (events s.record), callsOf k (events new) = own k
  delivered : ∀ before m after v, new = before ++ m :: after → m.event = .fired v →
    callsOf (fires (events (s.record ++ before))) (events after) =
      (live (events (s.record ++ before))).map fun p => (p.2, v)

variable {s s₁ s₂ : Scene ι α ω} {own own₁ own₂ : Nat → List (ι × α)} {new new₁ new₂ : List (Entry ι α)}

namespace Grows

theorem events_eq (h : Grows own new s s₁) : events s₁.record = events s.record ++ events new := by
  rw [h.record, events_append]

theorem fires_le (h : Grows own new s s₁) : fires (events s.record) ≤ fires (events s₁.record) := by
  rw [h.events_eq, fires_append]
  exact Nat.le_add_right _ _

theorem congr (h : Grows own₁ new s s₁) (hown : ∀ k, own₁ k = own₂ k) : Grows own₂ new s s₁ :=
  (funext hown : own₁ = own₂) ▸ h

theorem refl (hs : s.Sound) : Grows (fun _ => []) [] s s where
  record := (List.append_nil _).symm
  sound := hs
  fits before m after hnew := absurd hnew (by simp)
  older _ _ := rfl
  delivered before m after v hnew := absurd hnew (by simp)

/-- What is done one after the other. No calls may be made later for a fire that began in the first part. -/
theorem trans (h : Grows own₁ new₁ s s₁) (k : Grows own₂ new₂ s₁ s₂)
    (hown : ∀ k, fires (events s.record) ≤ k → own₂ k = []) :
    Grows (fun k => own₁ k ++ own₂ k) (new₁ ++ new₂) s s₂ where
  record := by rw [k.record, h.record, List.append_assoc]
  sound := k.sound
  fits before m after hnew := by
    rcases append_eq_append_cons hnew with ⟨middle, hfirst, -⟩ | ⟨middle, rfl, hsecond⟩
    · exact h.fits before m middle hfirst
    · rw [← List.append_assoc, ← h.record]
      exact k.fits middle m after hsecond
  older i hi := by
    have hi₁ : i < fires (events s₁.record) := by
      rw [h.events_eq, fires_append]
      omega
    rw [events_append, callsOf_append, h.older i hi, k.older i hi₁]
  delivered before m after v hnew hfired := by
    rcases append_eq_append_cons hnew with ⟨middle, hfirst, rfl⟩ | ⟨middle, rfl, hsecond⟩
    · -- the fire began in the first part, and is over there
      have hbegun : fires (events (s.record ++ before)) < fires (events s₁.record) := by
        have hfire : fires (events [m]) = 1 := by
          rw [events, List.map_singleton, hfired]
          rfl
        rw [h.events_eq, hfirst, List.append_cons, events_append, events_append, events_append, fires_append,
          fires_append, fires_append, fires_append, hfire]
        omega
      have hlate : fires (events s.record) ≤ fires (events (s.record ++ before)) := by
        rw [events_append, fires_append]
        exact Nat.le_add_right _ _
      rw [events_append middle, callsOf_append, k.older _ hbegun, hown _ hlate, List.append_nil]
      exact h.delivered before m middle v hfirst hfired
    · rw [← List.append_assoc, ← h.record]
      exact k.delivered middle m after v hsecond hfired

/-- An entry other than that a value is fired. -/
theorem note {e : Event ι α} {c : Channel ι} (hs : s.Sound) (hfits : Fits (events s.record) ⟨e, c⟩)
    (hfired : e.value? = none) : Grows (fun k => callsOf k [e]) [⟨e, c⟩] s (s.note e c) where
  record := rfl
  sound := hfits.sound hs
  fits before m after hnew := by
    obtain ⟨rfl, rfl, rfl⟩ := singleton_eq_append_cons hnew
    rwa [List.append_nil]
  older k _ := rfl
  delivered before m after v hnew hm := by
    obtain ⟨rfl, rfl, rfl⟩ := singleton_eq_append_cons hnew
    rw [show e = .fired v from hm] at hfired
    cases hfired

theorem subscribe (hs : s.Sound) (l : ι) :
    Grows (fun _ => []) [⟨.subscribed l, s.channel.subscribe l⟩] s (s.subscribe l) := by
  have hfits : Fits (events s.record) ⟨.subscribed l, s.channel.subscribe l⟩ :=
    ⟨by rw [hs.channel, Channel.after_subscribed hs.ends], nofun, nofun⟩
  exact note hs hfits rfl

theorem dispose (hs : s.Sound) (id : Nat) : ∃ new, Grows (fun _ => []) new s (s.dispose id) := by
  rcases hhandle : s.channel.handles[id]? with _ | handle
  · rw [Scene.dispose, hhandle]
    exact ⟨[], refl hs⟩
  · obtain ⟨hid, hafter⟩ := hs.dispose hhandle
    have hfits : Fits (events s.record) ⟨.disposed id, s.channel.dispose id handle⟩ :=
      ⟨hafter.symm, fun _ h => Event.disposed.inj h ▸ hid, nofun⟩
    rw [Scene.dispose, hhandle]
    exact ⟨_, note hs hfits rfl⟩

section

variable {serve : ι → α → Scene ι α ω → Except ε Unit × Scene ι α ω}
  (hserve : ∀ l v s, s.Sound → ∃ new, Grows (fun _ => []) new s (serve l v s).2)

include hserve

/-- The calls of a fire: one listener after the other. -/
theorem foldl (k : Nat) (v : α) (ls : List (Nat × ι)) :
    ∀ s : Scene ι α ω, s.Sound → k < fires (events s.record) →
      ∃ new, Grows (fun i => if i = k then ls.map fun p => (p.2, v) else []) new s
        (ls.foldl (fun s p => attempt (Scene.called serve k p.2 v) s) s) := by
  induction ls with
  | nil =>
    intro s hs _
    refine ⟨[], ?_⟩
    simp only [List.map_nil, ite_self]
    exact refl hs
  | cons p ls ih =>
    intro s hs hk
    have hfits : Fits (events s.record) ⟨.called k p.2 v, s.channel⟩ := by
      refine ⟨?_, nofun, ?_⟩
      · rw [hs.channel, Channel.after_other rfl rfl]
      · rintro _ _ _ ⟨⟩
        exact hk
    have hcalled := note hs hfits rfl
    obtain ⟨served, hserved⟩ := hserve p.2 v _ hcalled.sound
    have hfirst := hcalled.trans hserved fun _ _ => rfl
    obtain ⟨rest, hrest⟩ := ih _ hfirst.sound (hk.trans_le hfirst.fires_le)
    rw [List.foldl_cons, attempt_eq]
    refine ⟨_, (hfirst.trans hrest fun i hi => if_neg (by omega)).congr fun i => ?_⟩
    rw [List.append_nil, callsOf_called]
    split <;> rfl

theorem fire (hs : s.Sound) (v : α) : ∃ new, Grows (fun _ => []) new s (s.fire serve v) := by
  have hfits : Fits (events s.record) ⟨.fired v, s.channel⟩ :=
    ⟨by rw [hs.channel, Channel.after_other rfl rfl], nofun, nofun⟩
  have hbegun : fires (events (s.note (.fired v) s.channel).record) = fires (events s.record) + 1 := by
    rw [Scene.note, events_append, fires_append]
    rfl
  obtain ⟨new, hnew⟩ :=
    foldl hserve (fires (events s.record)) v s.channel.emitter.listeners _ (hfits.sound hs) (by omega)
  exact ⟨⟨.fired v, s.channel⟩ :: new, {
    record := by
      refine hnew.record.trans ?_
      rw [Scene.note, List.append_assoc, List.singleton_append]
    sound := hnew.sound
    fits := fun before m after hsplit => by
      cases before with
      | nil =>
        obtain ⟨rfl, -⟩ := List.cons.inj hsplit
        rwa [List.append_nil]
      | cons _ before =>
        obtain ⟨rfl, hlater⟩ := List.cons.inj hsplit
        rw [List.append_cons]
        exact hnew.fits before m after hlater
    older := fun k hk => by
      have hlater := hnew.older k (by omega)
      rwa [if_neg (by omega)] at hlater
    delivered := fun before m after v' hsplit hfired => by
      cases before with
      | nil =>
        obtain ⟨rfl, rfl⟩ := List.cons.inj hsplit
        obtain rfl : v = v' := Event.fired.inj hfired
        have hcalls := hnew.older (fires (events s.record)) (by omega)
        rw [if_pos rfl, hs.channel] at hcalls
        rwa [List.append_nil]
      | cons _ before =>
        obtain ⟨rfl, hlater⟩ := List.cons.inj hsplit
        rw [List.append_cons]
        exact hnew.delivered before m after v' hlater hfired }⟩

/-- A program makes no call for a fire that had begun before it. -/
theorem run (p : Routine ι α ε ω) :
    ∀ s, s.Sound → ∃ new, Grows (fun _ => []) new s (p.run serve s).2 := by
  induction p with
  | done => exact fun s hs => ⟨[], refl hs⟩
  | fails why => exact fun s hs => ⟨[], refl hs⟩
  | act change next ih =>
    intro s hs
    obtain ⟨new, h⟩ := ih { s with rest := change s.rest } ⟨hs.channel, hs.ends⟩
    exact ⟨new, h.record, h.sound, h.fits, h.older, h.delivered⟩
  | look next ih => exact fun s hs => ih s.channel s.rest s hs
  | subscribe l next ih =>
    intro s hs
    have hfirst := subscribe hs l
    obtain ⟨new, hnext⟩ := ih s.channel.handles.length _ hfirst.sound
    exact ⟨_, hfirst.trans hnext fun _ _ => rfl⟩
  | dispose id next ih =>
    intro s hs
    obtain ⟨first, hfirst⟩ := dispose hs id
    obtain ⟨new, hnext⟩ := ih _ hfirst.sound
    exact ⟨_, hfirst.trans hnext fun _ _ => rfl⟩
  | fire v next ih =>
    intro s hs
    obtain ⟨first, hfirst⟩ := fire hserve hs v
    obtain ⟨new, hnext⟩ := ih _ hfirst.sound
    exact ⟨_, hfirst.trans hnext fun _ _ => rfl⟩

end

/-- So do those who follow programs, however deep fires are nested. -/
theorem serve (conduct : ι → α → Routine ι α ε ω) (limit : ε) (depth : Nat) :
    ∀ l v (s : Scene ι α ω), s.Sound → ∃ new, Grows (fun _ => []) new s (serve conduct limit depth l v s).2 := by
  induction depth with
  | zero => exact fun l v s hs => ⟨[], refl hs⟩
  | succ depth ih => exact fun l v s hs => run ih (conduct l v) s hs

end Grows

/-! ## Whole runs -/

/-- The channel as it is at the end of a record. -/
def latest (record : List (Entry ι α)) : Channel ι :=
  record.getLast?.elim .empty Entry.channel

/-- Every entry of a record fits to those before it. -/
def Chained (record : List (Entry ι α)) : Prop :=
  ∀ before m after, record = before ++ m :: after → Fits (events before) m

namespace Chained

variable {record before after : List (Entry ι α)} {m : Entry ι α}

theorem of_append (h : Chained (before ++ m :: after)) : Chained before := by
  rintro first m' rest rfl
  exact h first m' (rest ++ m :: after) (by rw [List.append_assoc, List.cons_append])

theorem latest_eq (h : Chained record) : latest record = .after (events record) := by
  rcases List.eq_nil_or_concat record with rfl | ⟨before, m, rfl⟩
  · rfl
  · rw [latest, List.concat_eq_append, List.getLast?_concat, events_append]
    exact (h before m [] (List.concat_eq_append ..)).channel

theorem ends (h : Chained record) : EndsMade (events record) := by
  intro id hid
  obtain ⟨e, he, hid⟩ := List.mem_filterMap.1 hid
  obtain ⟨m, hm, rfl⟩ := List.mem_map.1 he
  obtain ⟨before, after, rfl⟩ := List.append_of_mem hm
  have hevent : m.event = .disposed id := by
    cases hevent : m.event <;> simp_all [Event.disposed?]
  have hless := (h before m after rfl).ends id hevent
  rw [events_append, made_append, List.length_append]
  omega

/-- A fire has no calls before it begins. -/
theorem callsOf_eq_nil (h : Chained record) {k : Nat} (hk : fires (events record) ≤ k) :
    callsOf k (events record) = [] := by
  rw [callsOf, List.map_eq_nil_iff, List.filter_eq_nil_iff]
  rintro ⟨i, l, v⟩ hcall hi
  obtain ⟨e, he, hcall⟩ := List.mem_filterMap.1 hcall
  obtain ⟨m, hm, rfl⟩ := List.mem_map.1 he
  obtain ⟨before, after, rfl⟩ := List.append_of_mem hm
  have hevent : m.event = .called i l v := by
    cases hevent : m.event <;> simp_all [Event.call?]
  have hless := (h before m after rfl).calls i l v hevent
  rw [events_append, fires_append] at hk
  have hsame : i = k := of_decide_eq_true hi
  omega

end Chained

/-- What an entry of a record shows. -/
structure Plain (before : List (Entry ι α)) (m : Entry ι α) : Prop where
  /-- Those subscribed are those who were and whose subscriptions were not ended, in order. -/
  listeners : m.channel.emitter.listeners = live (events (before ++ [m]))
  /-- They are as many as subscriptions were made, without the different ones that were ended. -/
  count : m.channel.emitter.count + (ended (events (before ++ [m]))).toFinset.card =
    (made (events (before ++ [m]))).length
  /-- The handles tell which subscriptions were not ended. -/
  active : m.channel.handles.map (·.isActive) =
    (List.range (made (events (before ++ [m]))).length).map fun id =>
      decide (id ∉ ended (events (before ++ [m])))
  /-- A handle takes out its own subscription and nothing else. -/
  disposal : ∀ id, m.event = .disposed id → id ∉ ended (events before) → ∃ l older younger,
    (latest before).emitter.listeners = older ++ (id, l) :: younger ∧
      m.channel.emitter.listeners = older ++ younger
  /-- Used once more, it changes nothing. -/
  again : ∀ id, m.event = .disposed id → id ∈ ended (events before) → m.channel = latest before
  /-- No listener is called but for a fire that has begun. -/
  calls : ∀ k l v, m.event = .called k l v → k < fires (events before)

theorem Fits.plain {before : List (Entry ι α)} {m : Entry ι α} (hfits : Fits (events before) m)
    (hbefore : Chained before) : Plain before m := by
  have hevents : events (before ++ [m]) = events before ++ [m.event] := events_append _ _
  have hends : EndsMade (events before ++ [m.event]) := hbefore.ends.append hfits.ends
  obtain ⟨event, channel⟩ := m
  obtain rfl : channel = .after (events before ++ [event]) := hfits.channel
  exact {
    listeners := by rw [hevents]; rfl
    count := by
      rw [hevents]
      exact live_length hends
    active := by
      rw [hevents, Channel.after, List.map_map]
      rfl
    disposal := by
      rintro id rfl hid
      rw [hbefore.latest_eq]
      exact live_disposed_split (hfits.ends id rfl) hid
    again := by
      rintro id rfl hid
      rw [hbefore.latest_eq]
      exact Channel.after_disposed_again hid
    calls := hfits.calls }

/-- What the record of a whole run shows. -/
structure Faithful (s : Scene ι α ω) : Prop where
  entries : ∀ before m after, s.record = before ++ m :: after → Plain before m
  /-- A fire calls those who are subscribed when it begins, each once and in order, with its value. -/
  delivery : ∀ before m after v, s.record = before ++ m :: after → m.event = .fired v →
    callsOf (fires (events before)) (events s.record) = (latest before).emitter.listeners.map fun p => (p.2, v)
  /-- The subscriptions and the handles are left as they were last recorded. -/
  left : s.channel = latest s.record

/-- Whatever the listeners and those outside do, and however deep fires are nested, every run is faithful. -/
theorem run_faithful (conduct : ι → α → Routine ι α ε ω) (limit : ε) (depth : Nat) (p : Routine ι α ε ω)
    (rest : ω) : Faithful (p.run (serve conduct limit depth) (.start rest)).2 := by
  have hstart : (Scene.start rest : Scene ι α ω).Sound := ⟨rfl, fun _ h => absurd h List.not_mem_nil⟩
  obtain ⟨record, h⟩ := Grows.run (Grows.serve conduct limit depth) p (.start rest) hstart
  generalize (p.run (serve conduct limit depth) (.start rest)).2 = s at h ⊢
  have hrecord : s.record = record := h.record
  have hchained : Chained s.record := fun before m after hsplit =>
    h.fits before m after (hrecord.symm.trans hsplit)
  have hbefore {before after : List (Entry ι α)} {m : Entry ι α} (hsplit : s.record = before ++ m :: after) :
      Chained before := (hsplit ▸ hchained : Chained (before ++ m :: after)).of_append
  refine ⟨fun before m after hsplit => (hchained before m after hsplit).plain (hbefore hsplit), ?_,
    h.sound.channel.trans hchained.latest_eq.symm⟩
  intro before m after v hsplit hv
  calc callsOf (fires (events before)) (events s.record)
      = callsOf (fires (events before)) (events (m :: after)) := by
        rw [hsplit, events_append, callsOf_append, (hbefore hsplit).callsOf_eq_nil le_rfl, List.nil_append]
    _ = callsOf (fires (events before)) (events after) := by
        show callsOf _ (m.event :: events after) = _
        rw [hv]
        rfl
    _ = (live (events before)).map fun p => (p.2, v) :=
        h.delivered before m after v (hrecord.symm.trans hsplit) hv
    _ = (latest before).emitter.listeners.map fun p => (p.2, v) := by
        rw [(hbefore hsplit).latest_eq]
        rfl

/-- A listener is subscribed twice. It ends the first subscription and fails whenever it is called, which keeps
the second one neither from the fire under way nor from the next. -/
example :
    let conduct (_ : Unit) (_ : Nat) : Routine Unit Nat Unit Unit := .dispose 0 (.fails ())
    let p : Routine Unit Nat Unit Unit := .subscribe () fun _ => .subscribe () fun _ => .fire 1 (.fire 2 .done)
    events (p.run (serve conduct () 1) (.start ())).2.record =
      [.subscribed (), .subscribed (), .fired 1, .called 0 () 1, .disposed 0, .called 0 () 1, .disposed 0,
        .fired 2, .called 1 () 2, .disposed 0] :=
  rfl

end ScriptTree.Analysis.Emitter
