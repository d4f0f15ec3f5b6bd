/-!
Observers of a value that changes.

Subscriptions are numbered in the order in which they are made. A value goes to the listeners that
are subscribed when it is fired, in that order; what a listener does to the subscriptions meanwhile
counts from the next value on. The listeners act on a world of their own, which may hold the
emitter itself. Whoever subscribes is given a handle that ends the subscription, once.
-/

namespace ScriptTree.Analysis

/-- The listeners of type `ι` that are subscribed, the oldest first, each with the number of its
subscription, and the number of the next one. -/
structure Emitter (ι : Type) where
  nextId : Nat
  listeners : List (Nat × ι)

/-- The handle of a subscription: its number, and whether it still is to be ended. -/
structure Subscription where
  id : Nat
  isActive : Bool
  deriving DecidableEq, Repr

namespace Emitter

variable {ι : Type}

/-- No listeners. -/
def empty : Emitter ι := ⟨0, []⟩

/-- Subscribes a listener and gives the handle of its subscription. -/
def subscribe (e : Emitter ι) (listener : ι) : Subscription × Emitter ι :=
  ({ id := e.nextId, isActive := true },
    { nextId := e.nextId + 1, listeners := e.listeners ++ [(e.nextId, listener)] })

/-- Takes the subscription with a number out. -/
def dispose (e : Emitter ι) (id : Nat) : Emitter ι :=
  { e with listeners := e.listeners.filter (·.1 != id) }

/-- Whether a subscription holds. -/
def isActive (e : Emitter ι) (id : Nat) : Bool :=
  e.listeners.any (·.1 == id)

/-- The number of subscriptions that hold. -/
def count (e : Emitter ι) : Nat :=
  e.listeners.length

/-- Has a listener do something to the world. If it fails, what it did until then stays, and its failure
is passed over. The failures are those that a handler for all errors catches: an exit or an interrupt, which
ends the program from inside a listener, is none of them and is left out. -/
def attempt {ε ω : Type} (call : ω → Except ε Unit × ω) (world : ω) : ω :=
  match call world with
  | (.ok _, world) => world
  | (.error _, world) => world

/-- Delivers a value: `call` is what a listener does with it to the world. A listener that fails
has acted up to its failure and keeps no other from being called. -/
def fire {α ω : Type} (e : Emitter ι) (call : ι → α → ω → ω) (value : α) (world : ω) : ω :=
  e.listeners.foldl (fun world l => call l.2 value world) world

end Emitter

/-- Ends a subscription. A handle that has ended its subscription does nothing more. -/
def Subscription.dispose {ι : Type} (s : Subscription) (e : Emitter ι) : Subscription × Emitter ι :=
  if s.isActive then ({ s with isActive := false }, e.dispose s.id) else (s, e)

end ScriptTree.Analysis
