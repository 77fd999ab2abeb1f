import Nosy.Broadcast

/-! Notifiers over listeners that keep no promise. A listener may answer false and
later true, and what one call answers may depend on every call before it, on this
listener or on another. Each call of `receive` is recorded with its answer. -/

namespace Nosy
open EStateM (Result)

def Handle.dropDeadListeners {M L W : Type} (receive : Receive M L W) (world : W) :
    Handle L → Handle L × Result Failure W Unit
  | .raw notifier => let (after, outcome) := notifier.dropDeadListeners receive world; (.raw after, outcome)
  | .shared notifier =>
    let (after, outcome) := notifier.dropDeadListeners receive world; (.shared after, outcome)

namespace AliveFlag

variable {L ι M W : Type}

/-- A call of `receive` on a listener, and what it returned. -/
structure Call (L M : Type) where
  listener : L
  messages : List M
  answer : Bool
deriving DecidableEq, Repr

/-- The world the listeners share, and every call made on them. -/
structure Recorded (L M W : Type) where
  world : W
  calls : List (Call L M)
deriving DecidableEq, Repr

/-- The listeners are state machines over the world. -/
def respond (machine : L → List M → W → Bool × W) : Receive M L (Recorded L M W) :=
  fun listener messages record =>
    let (answer, world) := machine listener messages record.world
    .ok answer ⟨world, record.calls ++ [⟨listener, messages, answer⟩]⟩

/-- A notifier in use. No operation reads the calls recorded so far. -/
structure System (ι M W : Type) where
  handle : Handle (Registration ι)
  record : Recorded (Registration ι) M W
  registered : Nat

inductive Op (ι M W : Type) where
  | listen (listener : ι)
  | listenRaw (listener : ι)
  | notify (message : M)
  | notifyMany (messages : List M)
  | count
  | dropDeadListeners
  /-- Whatever else happens to the listeners between two calls. -/
  | evolve (world : W)
deriving DecidableEq, Repr

/-- Registrations of one listener share its state. -/
def receive (machine : ι → List M → W → Bool × W) : Receive M (Registration ι) (Recorded (Registration ι) M W) :=
  respond fun registration => machine registration.listener

def System.returned {α : Type} (registered : Nat) :
    Handle (Registration ι) × Result Failure (Recorded (Registration ι) M W) α → Option (System ι M W)
  | (handle, .ok _ record) => some ⟨handle, record, registered⟩
  | (_, .error _ _) => none

def step [VecGrowth] (machine : ι → List M → W → Bool × W) : Op ι M W → System ι M W → Option (System ι M W)
  | .listen listener, system => System.returned (system.registered + 1)
      (system.handle.listen (receive machine) ⟨system.registered, listener⟩ system.record)
  | .listenRaw listener, system => System.returned (system.registered + 1)
      (system.handle.listenRaw (receive machine) ⟨system.registered, listener⟩ system.record)
  | .notify message, system => System.returned system.registered
      (system.handle.notify (receive machine) message system.record)
  | .notifyMany messages, system => System.returned system.registered
      (system.handle.notifyMany (receive machine) messages system.record)
  | .count, system => System.returned system.registered (system.handle.count (receive machine) system.record)
  | .dropDeadListeners, system => System.returned system.registered
      (system.handle.dropDeadListeners (receive machine) system.record)
  | .evolve world, system => some { system with record := { system.record with world } }

def initial (shared : Bool) (world : W) : System ι M W := ⟨.new shared, ⟨world, []⟩, 0⟩

section Histories
variable [DecidableEq ι]

def callsOn (registration : Registration ι) (calls : List (Call (Registration ι) M)) :
    List (Call (Registration ι) M) := calls.filter (·.listener = registration)

/-- The first call on a registration is that of `listen`, before it is stored. -/
def callsSince (registration : Registration ι) (calls : List (Call (Registration ι) M)) :
    List (Call (Registration ι) M) := (callsOn registration calls).tail

/-- What the source says of `was_alive`: true iff every call to
`listener.receive()` has returned true. -/
def Faithful (system : System ι M W) : Prop :=
  ∀ entry ∈ system.handle.entries, entry.wasAlive = true ↔
    ∀ made ∈ callsSince entry.listener system.record.calls, made.answer = true

end Histories

/-- Asked one after the other, all listeners with a set flag answer true. -/
def unanimous (machine : ι → List M → W → Bool × W) : List (NotifierEntry (Registration ι)) → W → Bool
  | [], _ => true
  | entry :: rest, world =>
    if entry.wasAlive then
      let (answer, after) := machine entry.listener.listener [] world
      answer && unanimous machine rest after
    else unanimous machine rest world

/-- `RawNotifier::count` asks the listeners through `&self` and stores no answer,
so it may only be called when no answer has to be stored. -/
def heeds (machine : ι → List M → W → Bool × W) : Op ι M W → System ι M W → Bool
  | .count, ⟨.raw notifier, record, _⟩ => unanimous machine notifier.listeners record.world
  | _, _ => true

end AliveFlag
end Nosy
