import Mathlib.Data.Finset.Basic
import Mathlib.Logic.Function.Basic
import Nosy.Notifier

/-! The listeners the library can build, and what they refer to: destinations,
gates and other notifiers. All messages are of one type `M`; a network with
several message types is one over their sum. -/

namespace Nosy
open EStateM (Result)

section Filter
variable {I O W : Type}

/-- The loop over `messages` with an `ArrayVec<MO, BATCH>`. The fullness check
comes before the push, so an exactly full buffer is left to the final call. -/
def Filter.buffered (function : I → Option O) (batch : Nat) (target : List O → EStateM Failure W Bool) :
    List I → List O → EStateM Failure W Bool
  | [], buffer, world => target buffer world
  | message :: rest, buffer, world =>
    match function message with
    | none => buffered function batch target rest buffer world
    | some filtered =>
      if buffer.length = batch then
        match target buffer world with
        | .error failure after => .error failure after
        | .ok false after => .ok false after
        | .ok true after => buffered function batch target rest [filtered] after
      else buffered function batch target rest (buffer ++ [filtered]) world

/-- `zeroSized` says whether `size_of::<MO>() == 0`, where the buffer is unbounded. -/
def Filter.receive (function : I → Option O) (zeroSized : Bool) (batch : Nat)
    (target : List O → EStateM Failure W Bool) (messages : List I) : EStateM Failure W Bool :=
  if zeroSized then target (messages.filterMap function)
  else buffered function batch target messages []

end Filter

/-- A `Store` or `StoreRef` that meets the documented requirements. -/
structure Store (M C : Type) where
  receive : List M → C → C
  empty : ∀ contents, receive [] contents = contents
  append : ∀ first second contents, receive (first ++ second) contents = receive second (receive first contents)

/-- `Vec<M>`, which is what a `Log` stores into. -/
def Store.log (M : Type) : Store M (List M) where
  receive messages contents := contents ++ messages
  empty := List.append_nil
  append first second contents := (List.append_assoc contents first second).symm

/-- Destinations, gates and notifiers are referred to by number. -/
inductive Listener (M : Type) where
  | flag (id : Nat)
  /-- `StoreLockListener`, and `LogListener` around it. -/
  | storeLock (id : Nat)
  /-- `Weak<T>` of a `StoreRef`. -/
  | weak (id : Nat)
  | null
  | filter (function : M → Option M) (zeroSized : Bool) (batch : Nat) (positive : 0 < batch) (target : Listener M)
  | gate (id : Nat) (target : Listener M)
  | pair (first second : Listener M)
  /-- `NotifierForwarder`. -/
  | forward (id : Nat)

/-- What a weak reference points to; `alive` while the strong count is positive. -/
structure Destination (C : Type) where
  alive : Bool
  contents : C
deriving DecidableEq, Repr

structure Node (M : Type) where
  /-- Somebody owns the `Notifier`, so a forwarder's `upgrade()` succeeds. -/
  owned : Bool
  notifier : Notifier (Listener M)

structure World (M C : Type) where
  flags : Nat → Destination Bool
  stores : Nat → Destination C
  /-- Gates that were not dropped. -/
  gates : Nat → Bool
  notifiers : Nat → Node M

variable {M C : Type}

namespace World

def setFlag (world : World M C) (id : Nat) : World M C :=
  { world with flags := Function.update world.flags id { world.flags id with contents := true } }

def record (world : World M C) (store : Store M C) (id : Nat) (messages : List M) : World M C :=
  let contents := store.receive messages (world.stores id).contents
  { world with stores := Function.update world.stores id { world.stores id with contents } }

def setNotifier (world : World M C) (id : Nat) (notifier : Notifier (Listener M)) : World M C :=
  { world with notifiers := Function.update world.notifiers id { world.notifiers id with notifier } }

end World

variable (stores : Nat → Store M C)

/-- `notifyMany` is what a forwarder calls. -/
def Listener.receive (notifyMany : Nat → List M → EStateM Failure (World M C) Unit) :
    Receive M (Listener M) (World M C)
  | .flag id, messages, world =>
    if (world.flags id).alive then .ok true (if messages.isEmpty then world else world.setFlag id)
    else .ok false world
  | .storeLock id, messages, world =>
    if (world.stores id).alive then
      .ok true (if messages.isEmpty then world else world.record (stores id) id messages)
    else .ok false world
  | .weak id, messages, world =>
    if messages.isEmpty then .ok (world.stores id).alive world
    else if (world.stores id).alive then .ok true (world.record (stores id) id messages)
    else .ok false world
  | .null, _, world => .ok false world
  | .filter function zeroSized batch _ target, messages, world =>
    Filter.receive function zeroSized batch (receive notifyMany target) messages world
  | .gate id target, messages, world =>
    if world.gates id then receive notifyMany target messages world else .ok false world
  | .pair first second, messages, world =>
    -- the `|` of the source does not short-circuit
    match receive notifyMany first messages world with
    | .error failure after => .error failure after
    | .ok left middle =>
      match receive notifyMany second messages middle with
      | .error failure after => .error failure after
      | .ok right last => .ok (left || right) last
  | .forward id, messages, world =>
    if (world.notifiers id).owned then
      match notifyMany id messages world with
      | .error failure after => .error failure after
      | .ok () after => .ok true after
    else .ok false world

namespace World

/-- Run an operation of a notifier on its table. The lock that it holds meanwhile, for
reading or for writing, matters to those who come back to the same notifier. -/
def operate {α : Type} (id : Nat) (operation : Notifier (Listener M) → World M C →
    Notifier (Listener M) × Result Failure (World M C) α) : EStateM Failure (World M C) α := fun world =>
  match operation (world.notifiers id).notifier world with
  | (notifier, .ok value after) => .ok value (after.setNotifier id notifier)
  | (notifier, .error failure after) => .error failure (after.setNotifier id notifier)

/-- `fuel` bounds the length of a chain of forwarders. -/
def notifyMany : Nat → Nat → List M → EStateM Failure (World M C) Unit
  | 0, _, _, world => .error .outOfFuel world
  | fuel + 1, id, messages, world =>
    operate id (Notifier.notifyMany (Listener.receive stores (notifyMany fuel)) messages) world

/-- `Listener::receive` where forwarders reach at most `fuel` notifiers deep. -/
def receive (fuel : Nat) : Receive M (Listener M) (World M C) :=
  Listener.receive stores (notifyMany stores fuel)

def notify (fuel : Nat) (id : Nat) (message : M) : EStateM Failure (World M C) Unit :=
  operate id (Notifier.notify (receive stores fuel) message)

/-- `read()` of a `RwLock` that the same thread has for writing. Between threads it may also
never return. -/
def reentry : Failure := .panicked "already mutably borrowed"

/-- `notifyMany`, called from a listener while the lock of `held` is held for writing. -/
def notifyManyUnder (held : Nat) : Nat → Nat → List M → EStateM Failure (World M C) Unit
  | 0, _, _, world => .error .outOfFuel world
  | fuel + 1, id, messages, world =>
    if id = held then .error reentry world
    else operate id (Notifier.notifyMany (Listener.receive stores (notifyManyUnder held fuel)) messages) world

def receiveUnder (held fuel : Nat) : Receive M (Listener M) (World M C) :=
  Listener.receive stores (notifyManyUnder stores held fuel)

def listen [VecGrowth] (fuel : Nat) (id : Nat) (listener : Listener M) : EStateM Failure (World M C) Unit :=
  operate id (Notifier.listen (receiveUnder stores id fuel) listener)

def count (fuel : Nat) (id : Nat) : EStateM Failure (World M C) Nat :=
  operate id (Notifier.count (receiveUnder stores id fuel))

/-- `Notifier::close`, on a notifier that somebody owns. -/
def close (id : Nat) (world : World M C) : World M C :=
  world.setNotifier id (world.notifiers id).notifier.close

end World
end Nosy
