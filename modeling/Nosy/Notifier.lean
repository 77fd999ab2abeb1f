import Nosy.General.RetainSwap

/-! Delivery of messages to a dynamic set of listeners. A listener is any value
`L` whose `receive` acts on a world `W`; the world is whatever the listeners
share, and may contain other notifiers. -/

namespace Nosy
open EStateM (Result)

/-- Ways in which a call does not return normally. `outOfFuel` only bounds
forwarding cycles; `illTyped` marks what the source's types exclude. -/
inductive Failure where
  | panicked (message : String)
  | outOfFuel
  | illTyped
deriving DecidableEq, Repr

/-- `Listener::receive`: true if the listener is still interested. -/
abbrev Receive (M L W : Type) := L → List M → EStateM Failure W Bool

/-- `Vec` grows to `max (2 * capacity) (len + 1) minCap`, for a constant that
depends on the size of an entry. -/
class VecGrowth where
  minCap : Nat
  positive : 1 ≤ minCap

/-- The constant for entries of more than one byte and at most a kilobyte. -/
abbrev VecGrowth.usual : VecGrowth := ⟨4, by decide⟩

structure NotifierEntry (L : Type) where
  listener : L
  /-- True iff every call to `listener.receive()` has returned true. -/
  wasAlive : Bool
deriving DecidableEq, Repr

structure RawNotifier (L : Type) where
  listeners : List (NotifierEntry L)
  /-- `Vec::capacity` of `listeners`. -/
  capacity : Nat
deriving DecidableEq, Repr

variable {M L W : Type}

/-- `was_alive.fetch_and(alive)`. -/
def NotifierEntry.fetchAnd (entry : NotifierEntry L) (alive : Bool) : NotifierEntry L :=
  { entry with wasAlive := entry.wasAlive && alive }

namespace RawNotifier

def new : RawNotifier L := ⟨[], 0⟩

def countApproximate (raw : RawNotifier L) : Nat := raw.listeners.length

/-- The loop of `notify_many`. Flags are updated entry by entry, so a panicking
listener leaves the later entries as they were. -/
def deliver (receive : Receive M L W) (messages : List M) :
    List (NotifierEntry L) → W → List (NotifierEntry L) × Result Failure W Unit
  | [], world => ([], .ok () world)
  | entry :: rest, world =>
    match receive entry.listener messages world with
    | .error failure after => (entry :: rest, .error failure after)
    | .ok alive after =>
      let (updated, outcome) := deliver receive messages rest after
      (entry.fetchAnd alive :: updated, outcome)

def notifyMany (receive : Receive M L W) (messages : List M) (raw : RawNotifier L) (world : W) :
    RawNotifier L × Result Failure W Unit :=
  let (listeners, outcome) := deliver receive messages raw.listeners world
  ({ raw with listeners }, outcome)

def notify (receive : Receive M L W) (message : M) (raw : RawNotifier L) (world : W) :
    RawNotifier L × Result Failure W Unit :=
  raw.notifyMany receive [message] world

/-- `entry.was_alive.load() && entry.listener.receive(&[])`. -/
def stillAlive (receive : Receive M L W) (entry : NotifierEntry L) : EStateM Failure W Bool :=
  if entry.wasAlive then receive entry.listener [] else pure false

def dropDeadListeners (receive : Receive M L W) (raw : RawNotifier L) (world : W) :
    RawNotifier L × Result Failure W Unit :=
  let (listeners, outcome) :=
    RetainSwap.retain (stillAlive receive) raw.listeners.length 0 raw.listeners world
  ({ raw with listeners }, outcome)

def dropDeadIfFull (receive : Receive M L W) (raw : RawNotifier L) (world : W) :
    RawNotifier L × Result Failure W Unit :=
  if raw.listeners.length ≥ raw.capacity then raw.dropDeadListeners receive world
  else (raw, .ok () world)

/-- `Vec::push`. -/
def push [VecGrowth] (raw : RawNotifier L) (entry : NotifierEntry L) : RawNotifier L where
  listeners := raw.listeners ++ [entry]
  capacity :=
    if raw.listeners.length = raw.capacity then
      max (max (2 * raw.capacity) (raw.listeners.length + 1)) VecGrowth.minCap
    else raw.capacity

/-- The body shared by `listen` and `listen_raw`, which differ only in converting
the listener to its stored form. -/
def register [VecGrowth] (receive : Receive M L W) (listener : L) (raw : RawNotifier L) (world : W) :
    RawNotifier L × Result Failure W Unit :=
  match receive listener [] world with
  | .error failure after => (raw, .error failure after)
  | .ok false after => (raw, .ok () after) -- already dead, so it is not added
  | .ok true after =>
    match raw.dropDeadIfFull receive after with
    | (pruned, .error failure last) => (pruned, .error failure last)
    | (pruned, .ok () last) => (pruned.push ⟨listener, true⟩, .ok () last)

def listen [VecGrowth] (receive : Receive M L W) (listener : L) (raw : RawNotifier L) (world : W) :
    RawNotifier L × Result Failure W Unit :=
  raw.register receive listener world

def listenRaw [VecGrowth] (receive : Receive M L W) (listener : L) (raw : RawNotifier L) (world : W) :
    RawNotifier L × Result Failure W Unit :=
  raw.register receive listener world

/-- `RawNotifier::count` asks the listeners but removes nothing. -/
def count (receive : Receive M L W) (raw : RawNotifier L) : EStateM Failure W Nat :=
  List.length <$> RetainSwap.select (stillAlive receive) raw.listeners

end RawNotifier

/-- The state inside a `Notifier`'s lock. -/
inductive Notifier (L : Type) where
  | opened (raw : RawNotifier L)
  | closed
deriving DecidableEq, Repr

namespace Notifier

def new : Notifier L := .opened .new

/-- Drops all current listeners and refuses future ones. -/
def close (_ : Notifier L) : Notifier L := .closed

def countApproximate : Notifier L → Nat
  | .opened raw => raw.countApproximate
  | .closed => 0

def notifyMany (receive : Receive M L W) (messages : List M) (notifier : Notifier L) (world : W) :
    Notifier L × Result Failure W Unit :=
  match notifier with
  | .opened raw =>
    let (after, outcome) := raw.notifyMany receive messages world
    (.opened after, outcome)
  | .closed => (.closed, .error (.panicked "cannot send messages after Notifier::close()") world)

def notify (receive : Receive M L W) (message : M) (notifier : Notifier L) (world : W) :
    Notifier L × Result Failure W Unit :=
  notifier.notifyMany receive [message] world

def dropDeadListeners (receive : Receive M L W) (notifier : Notifier L) (world : W) :
    Notifier L × Result Failure W Unit :=
  match notifier with
  | .closed => (.closed, .ok () world)
  | .opened raw =>
    let (after, outcome) := raw.dropDeadListeners receive world
    (.opened after, outcome)

def count (receive : Receive M L W) (notifier : Notifier L) (world : W) :
    Notifier L × Result Failure W Nat :=
  match notifier.dropDeadListeners receive world with
  | (pruned, .error failure after) => (pruned, .error failure after)
  | (pruned, .ok () after) => (pruned, .ok pruned.countApproximate after)

def listen [VecGrowth] (receive : Receive M L W) (listener : L) (notifier : Notifier L) (world : W) :
    Notifier L × Result Failure W Unit :=
  match notifier with
  | .opened raw =>
    let (after, outcome) := raw.listen receive listener world
    (.opened after, outcome)
  | .closed => (.closed, .ok () world)

def listenRaw [VecGrowth] (receive : Receive M L W) (listener : L) (notifier : Notifier L) (world : W) :
    Notifier L × Result Failure W Unit :=
  match notifier with
  | .opened raw =>
    let (after, outcome) := raw.listenRaw receive listener world
    (.opened after, outcome)
  | .closed => (.closed, .ok () world)

end Notifier
end Nosy
