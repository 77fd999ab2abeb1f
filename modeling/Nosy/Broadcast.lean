import Mathlib.Logic.Function.Basic
import Nosy.General.Transition
import Nosy.Notifier

/-! Notifiers over arbitrary listeners. Each listener is a state machine with a
state of its own; a registration is one entry that some call of `listen` asked
for, so a listener registered twice has two of them. -/

namespace Nosy
open EStateM (Result)

/-- A listener seen from outside: `receive` answers and may change its state. -/
structure Machine (M : Type) where
  State : Type
  receive : State → List M → Bool × State

def Machine.alive {M : Type} (machine : Machine M) (state : machine.State) : Bool :=
  (machine.receive state []).1

/-- The contract of the `Listener` trait: once `receive` returns false it always
does, and `receive(&[])` has no other effect. -/
structure LawfulMachine (M : Type) extends Machine M where
  dead_stays : ∀ state first later, (receive state first).1 = false →
    (receive (receive state first).2 later).1 = false
  query_inert : ∀ state, (receive state []).2 = state

structure Registration (ι : Type) where
  number : Nat
  listener : ι
deriving DecidableEq, Repr

/-- A notifier used directly, or behind its lock. -/
inductive Handle (L : Type) where
  | raw (notifier : RawNotifier L)
  | shared (notifier : Notifier L)

namespace Handle
variable {M L W : Type}

def new (shared : Bool) : Handle L := if shared then .shared .new else .raw .new

def entries : Handle L → List (NotifierEntry L)
  | .raw notifier => notifier.listeners
  | .shared (.opened notifier) => notifier.listeners
  | .shared .closed => []

def notify (receive : Receive M L W) (message : M) (world : W) : Handle L → Handle L × Result Failure W Unit
  | .raw notifier => let (after, outcome) := notifier.notify receive message world; (.raw after, outcome)
  | .shared notifier => let (after, outcome) := notifier.notify receive message world; (.shared after, outcome)

def notifyMany (receive : Receive M L W) (messages : List M) (world : W) :
    Handle L → Handle L × Result Failure W Unit
  | .raw notifier => let (after, outcome) := notifier.notifyMany receive messages world; (.raw after, outcome)
  | .shared notifier =>
    let (after, outcome) := notifier.notifyMany receive messages world; (.shared after, outcome)

def listen [VecGrowth] (receive : Receive M L W) (listener : L) (world : W) :
    Handle L → Handle L × Result Failure W Unit
  | .raw notifier => let (after, outcome) := notifier.listen receive listener world; (.raw after, outcome)
  | .shared notifier =>
    let (after, outcome) := notifier.listen receive listener world; (.shared after, outcome)

def listenRaw [VecGrowth] (receive : Receive M L W) (listener : L) (world : W) :
    Handle L → Handle L × Result Failure W Unit
  | .raw notifier => let (after, outcome) := notifier.listenRaw receive listener world; (.raw after, outcome)
  | .shared notifier =>
    let (after, outcome) := notifier.listenRaw receive listener world; (.shared after, outcome)

/-- `RawNotifier::count` leaves the table alone; `Notifier::count` prunes it. -/
def count (receive : Receive M L W) (world : W) : Handle L → Handle L × Result Failure W Nat
  | .raw notifier => (.raw notifier, notifier.count receive world)
  | .shared notifier => let (after, outcome) := notifier.count receive world; (.shared after, outcome)

end Handle

namespace Broadcast

variable {ι M : Type} [DecidableEq ι]

/-- The listeners' states, and every call of `receive` made on them. -/
structure World (machine : ι → Machine M) where
  states : (i : ι) → (machine i).State
  calls : List (Registration ι × List M)

def call (machine : ι → Machine M) : Receive M (Registration ι) (World machine) :=
  fun registration messages world =>
    let (alive, next) := (machine registration.listener).receive (world.states registration.listener) messages
    .ok alive {
      states := Function.update world.states registration.listener next
      calls := world.calls ++ [(registration, messages)] }

/-- A notifier in use. The calls made on its listeners are kept in two histories,
which no operation reads: deliveries, and the liveness queries of `listen` and `count`. -/
structure System (machine : ι → Machine M) where
  handle : Handle (Registration ι)
  states : (i : ι) → (machine i).State
  registered : Nat
  delivered : List (Registration ι × List M)
  queried : List (Registration ι × List M)

inductive Op (machine : ι → Machine M) where
  | listen (listener : ι)
  | listenRaw (listener : ι)
  | notify (message : M)
  | notifyMany (messages : List M)
  | count
  /-- The owner of the destination changes it, possibly for the last time. -/
  | evolve (listener : ι) (next : (machine listener).State)

variable {machine : ι → Machine M}

def System.alive (system : System machine) (listener : ι) : Bool :=
  (machine listener).alive (system.states listener)

def System.world (system : System machine) : World machine := ⟨system.states, []⟩

def System.sent (system : System machine) :
    Handle (Registration ι) × Result Failure (World machine) Unit → Option (System machine)
  | (handle, .ok () world) =>
    some { system with handle, states := world.states, delivered := system.delivered ++ world.calls }
  | (_, .error _ _) => none

def System.asked (system : System machine) (registered : Nat) {α : Type} :
    Handle (Registration ι) × Result Failure (World machine) α → Option (System machine)
  | (handle, .ok _ world) =>
    some { system with handle, states := world.states, registered, queried := system.queried ++ world.calls }
  | (_, .error _ _) => none

variable [VecGrowth]

/-- A dead listener is never brought back by its owner. -/
def step : Op machine → System machine → Option (System machine)
  | .listen listener, system =>
    system.asked (system.registered + 1)
      (system.handle.listen (call machine) ⟨system.registered, listener⟩ system.world)
  | .listenRaw listener, system =>
    system.asked (system.registered + 1)
      (system.handle.listenRaw (call machine) ⟨system.registered, listener⟩ system.world)
  | .notify message, system => system.sent (system.handle.notify (call machine) message system.world)
  | .notifyMany messages, system => system.sent (system.handle.notifyMany (call machine) messages system.world)
  | .count, system => system.asked system.registered (system.handle.count (call machine) system.world)
  | .evolve listener next, system =>
    if (machine listener).alive next = true ∧ system.alive listener = false then none
    else some { system with states := Function.update system.states listener next }

def initial (handle : Handle (Registration ι)) (states : (i : ι) → (machine i).State) : System machine :=
  ⟨handle, states, 0, [], []⟩

/-- The batches that a list of calls passed to one registration, in order. -/
def callsTo (registration : Registration ι) (calls : List (Registration ι × List M)) : List (List M) :=
  (calls.filter (·.1 = registration)).map (·.2)

/-- The specification: a broadcaster that keeps every registration for ever and
records what it owes to each. -/
structure Naive (ι M : Type) where
  registrations : List (Registration ι × List (List M))
  registered : Nat

/-- The batches an operation passes to the listeners. -/
def Op.batches : Op machine → List (List M)
  | .notify message => [[message]]
  | .notifyMany messages => [messages]
  | _ => []

def Naive.step (naive : Naive ι M) (op : Op machine) : Naive ι M :=
  match op with
  | .listen listener | .listenRaw listener =>
    ⟨naive.registrations ++ [(⟨naive.registered, listener⟩, [])], naive.registered + 1⟩
  | op => { naive with
      registrations := naive.registrations.map fun (registration, due) => (registration, due ++ op.batches) }

def Naive.run (ops : List (Op machine)) : Naive ι M := ops.foldl Naive.step ⟨[], 0⟩

end Broadcast
end Nosy
