import Nosy.Broadcast

/-! A notifier under any use, with a record of its pruning passes. Listeners are
arbitrary here: `receive` may answer anything, change anything and panic, and their
owners may do anything in between. A panic leaves the notifier usable, since its
lock is not poisoned. -/

namespace Nosy.Pruning
open EStateM (Result)

variable {M L W : Type}

/-- What is left of the world after a call, whether it returned or panicked. -/
def settled {α : Type} : Result Failure W α → W
  | .ok _ world => world
  | .error _ world => world

/-- How many entries survive a pass of `drop_dead_listeners` that is completed. -/
def survivors (receive : Receive M L W) (raw : RawNotifier L) (world : W) : Option Nat :=
  match raw.dropDeadListeners receive world with
  | (pruned, .ok () _) => some pruned.listeners.length
  | (_, .error _ _) => none

/-- The pass that `listen` makes for a listener that is alive when the table is full. -/
def listenPass (receive : Receive M L W) (listener : L) (raw : RawNotifier L) (world : W) : Option Nat :=
  match receive listener [] world with
  | .ok true after => if raw.listeners.length ≥ raw.capacity then survivors receive raw after else none
  | _ => none

inductive Op (M L W : Type) where
  | listen (listener : L)
  | listenRaw (listener : L)
  | notify (message : M)
  | notifyMany (messages : List M)
  | count
  /-- Listeners die, or anything else that happens outside of the notifier. -/
  | evolve (next : W)

/-- The pass that an operation makes; `RawNotifier::count` makes none. -/
def Op.pass (receive : Receive M L W) (op : Op M L W) (handle : Handle L) (world : W) : Option Nat :=
  match op, handle with
  | .listen listener, .raw raw | .listen listener, .shared (.opened raw) => listenPass receive listener raw world
  | .listenRaw listener, .raw raw | .listenRaw listener, .shared (.opened raw) => listenPass receive listener raw world
  | .count, .shared (.opened raw) => survivors receive raw world
  | _, _ => none

def capacity : Handle L → Nat
  | .raw raw | .shared (.opened raw) => raw.capacity
  | .shared .closed => 0

structure System (L W : Type) where
  handle : Handle L
  world : W
  /-- The most entries that have survived a pass. -/
  peak : Nat

def System.new (shared : Bool) (world : W) : System L W := ⟨.new shared, world, 0⟩

/-- The operation itself, on the table and on the world. -/
def Op.apply [VecGrowth] (receive : Receive M L W) (op : Op M L W) (handle : Handle L) (world : W) : Handle L × W :=
  match op with
  | .listen listener => let (after, outcome) := handle.listen receive listener world; (after, settled outcome)
  | .listenRaw listener => let (after, outcome) := handle.listenRaw receive listener world; (after, settled outcome)
  | .notify message => let (after, outcome) := handle.notify receive message world; (after, settled outcome)
  | .notifyMany messages => let (after, outcome) := handle.notifyMany receive messages world; (after, settled outcome)
  | .count => let (after, outcome) := handle.count receive world; (after, settled outcome)
  | .evolve next => (handle, next)

/-- Every operation can be tried at any time. -/
def step [VecGrowth] (receive : Receive M L W) (op : Op M L W) (system : System L W) : Option (System L W) :=
  let (handle, world) := op.apply receive system.handle system.world
  some ⟨handle, world, max system.peak ((op.pass receive system.handle system.world).getD 0)⟩

end Nosy.Pruning
