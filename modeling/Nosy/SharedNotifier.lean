import Nosy.Broadcast
import Nosy.General.Sequenced
import Nosy.General.SharedLock

/-! A `Notifier` used by any number of threads. Each step is one access to the
shared state: taking or releasing the lock, a call of `receive` that begins or
ends, one `fetch_and`, one `swap_remove`. Listeners answer as they like, and may
panic; they do not call the notifier that calls them. -/

namespace Nosy.SharedNotifier
open EStateM (Result)

variable {ι M W : Type}

/-- A method of `Notifier`, called through a shared reference. `notify` is
`notify_many` of one message; `listen` and `listen_raw` register the same way. -/
inductive Request (ι M : Type) where
  | notifyMany (messages : List M)
  | listen (registration : Registration ι)
  | count
  | close
deriving DecidableEq, Repr

/-- Takes the lock for reading. -/
def Request.sends : Request ι M → Bool
  | .notifyMany _ => true
  | _ => false

/-- What `drop_dead_listeners` is needed for. -/
inductive Goal (ι : Type) where
  | store (registration : Registration ι)
  | tally
deriving DecidableEq, Repr

/-- Where a thread is. The first three hold the lock for reading, the last four
for writing. -/
inductive Phase (ι M : Type) where
  | idle
  /-- In `notify_many`, about to look at this entry. -/
  | sending (messages : List M) (index : Nat)
  /-- In this entry's `receive`. -/
  | receiving (messages : List M) (index : Nat)
  /-- `receive` returned; `fetch_and` comes next. -/
  | marking (messages : List M) (index : Nat) (alive : Bool)
  /-- In the first `receive(&[])` of `listen`. -/
  | offering (registration : Registration ι)
  /-- In `drop_dead_listeners`, about to look at this entry. -/
  | pruning (goal : Goal ι) (index : Nat)
  /-- In this entry's `receive(&[])`. -/
  | asking (goal : Goal ι) (index : Nat)
  /-- About to push. -/
  | storing (registration : Registration ι)
deriving DecidableEq, Repr

def Phase.access : Phase ι M → Option Access
  | .idle => none
  | .sending .. | .receiving .. | .marking .. => some .shared
  | .offering .. | .pruning .. | .asking .. | .storing .. => some .exclusive

/-- How a call of `receive` ends: it returns, or panics with a message. -/
abbrev Answer := Except String Bool

/-- How a method ends. Only `count` returns something. -/
abbrev Outcome := Except Failure (Option Nat)

/-- One use of a method: the calls of `receive` it has begun, how those that have
ended did, and its own end, if it has ended. -/
structure Record (ι M : Type) where
  thread : Nat
  request : Request ι M
  calls : List (Registration ι × List M)
  answers : List Answer
  outcome : Option Outcome
deriving DecidableEq

structure State (ι M : Type) where
  lock : SharedLock Nat
  notifier : Notifier (Registration ι)
  threads : Nat → Phase ι M
  registered : Nat
  /-- Every use so far, in the order in which they got the lock. No step reads it. -/
  history : List (Record ι M)

/-- `close` was called before. -/
def closedMessage : String := "cannot send messages after Notifier::close()"

def Record.running (record : Record ι M) : Bool := record.outcome.isNone

/-- A change to the record of what `thread` is doing. -/
def amend (thread : Nat) (change : Record ι M → Record ι M) (history : List (Record ι M)) : List (Record ι M) :=
  history.map fun record => if record.thread = thread ∧ record.running then change record else record

def Record.call (registration : Registration ι) (messages : List M) (record : Record ι M) : Record ι M :=
  { record with calls := record.calls ++ [(registration, messages)] }

def Record.answer (answer : Answer) (record : Record ι M) : Record ι M :=
  { record with answers := record.answers ++ [answer] }

def Record.finish (outcome : Outcome) (record : Record ι M) : Record ι M :=
  { record with outcome := some outcome }

/-- What one access does: which entries it leaves, and where the method goes on or
how it ends. A call of `receive` begins where one is named. -/
inductive Effect (ι M : Type) where
  | goes (raw : RawNotifier (Registration ι)) (phase : Phase ι M)
  | calls (registration : Registration ι) (messages : List M) (phase : Phase ι M)
  | ends (raw : RawNotifier (Registration ι)) (outcome : Outcome)

/-- `was_alive.fetch_and(alive)` on one entry. -/
def mark (index : Nat) (alive : Bool) (raw : RawNotifier (Registration ι)) : RawNotifier (Registration ι) :=
  { raw with listeners := raw.listeners.modify index (·.fetchAnd alive) }

/-- `listeners.swap_remove(index)`. -/
def discard (index : Nat) (raw : RawNotifier (Registration ι)) : RawNotifier (Registration ι) :=
  { raw with listeners := RetainSwap.swapRemove raw.listeners index }

namespace Phase

/-- The next access of a method that is not in `receive`. -/
def advance [VecGrowth] (raw : RawNotifier (Registration ι)) : Phase ι M → Option (Effect ι M)
  | .sending messages index =>
    match raw.listeners[index]? with
    | some entry => some (.calls entry.listener messages (.receiving messages index))
    | none => some (.ends raw (.ok none))
  | .marking messages index alive => some (.goes (mark index alive raw) (.sending messages (index + 1)))
  | .pruning goal index =>
    match raw.listeners[index]?, goal with
    | some entry, goal =>
      if entry.wasAlive then some (.calls entry.listener [] (.asking goal index))
      else some (.goes (discard index raw) (.pruning goal index))
    | none, .store registration => some (.goes raw (.storing registration))
    | none, .tally => some (.ends raw (.ok (some raw.countApproximate)))
  | .storing registration => some (.ends (raw.push ⟨registration, true⟩) (.ok none))
  | _ => none

/-- `receive` returns to the method that called it. -/
def returned (raw : RawNotifier (Registration ι)) : Bool → Phase ι M → Option (Effect ι M)
  | alive, .receiving messages index => some (.goes raw (.marking messages index alive))
  | true, .offering registration =>
    if raw.listeners.length ≥ raw.capacity then some (.goes raw (.pruning (.store registration) 0))
    else some (.goes raw (.storing registration))
  | false, .offering _ => some (.ends raw (.ok none))
  | true, .asking goal index => some (.goes raw (.pruning goal (index + 1)))
  | false, .asking goal index => some (.goes (discard index raw) (.pruning goal index))
  | _, _ => none

/-- A panic in `receive` unwinds the method that called it. -/
def panicked (raw : RawNotifier (Registration ι)) (message : String) : Phase ι M → Option (Effect ι M)
  | .receiving .. | .offering _ | .asking .. => some (.ends raw (.error (.panicked message)))
  | _ => none

def answered (raw : RawNotifier (Registration ι)) : Answer → Phase ι M → Option (Effect ι M)
  | .ok alive => returned raw alive
  | .error message => panicked raw message

/-- The call of `receive` that the method is in. -/
def within : Phase ι M → Notifier (Registration ι) → Option (Registration ι × List M)
  | .receiving messages index, .opened raw => raw.listeners[index]?.map fun entry => (entry.listener, messages)
  | .offering registration, .opened _ => some (registration, [])
  | .asking _ index, .opened raw => raw.listeners[index]?.map fun entry => (entry.listener, [])
  | _, _ => none

end Phase

/-- What a method does once it has the lock, before anything else can happen. -/
inductive Entry (ι M : Type) where
  | enters (calls : List (Registration ι × List M)) (phase : Phase ι M)
  | passes (notifier : Notifier (Registration ι)) (outcome : Outcome)

namespace Request

def start : Request ι M → Notifier (Registration ι) → Entry ι M
  | .notifyMany messages, .opened _ => .enters [] (.sending messages 0)
  | .notifyMany _, .closed => .passes .closed (.error (.panicked closedMessage))
  | .listen registration, .opened _ => .enters [(registration, [])] (.offering registration)
  | .listen _, .closed => .passes .closed (.ok none)
  | .count, .opened _ => .enters [] (.pruning .tally 0)
  | .count, .closed => .passes .closed (.ok (some 0))
  | .close, notifier => .passes notifier.close (.ok none)

def acquire (request : Request ι M) (thread : Nat) (lock : SharedLock Nat) : Option (SharedLock Nat) :=
  if request.sends then lock.read thread else lock.write thread

/-- Registrations are numbered in the order in which `listen` gets the lock. -/
def enroll : Request ι M → Nat → Option Nat
  | .listen registration, registered => if registration.number = registered then some (registered + 1) else none
  | _, registered => some registered

end Request

namespace State

def within (state : State ι M) (thread : Nat) : Option (Registration ι × List M) :=
  (state.threads thread).within state.notifier

def noting (state : State ι M) (thread : Nat) (change : Record ι M → Record ι M) : State ι M :=
  { state with history := amend thread change state.history }

/-- The method gets the lock. It keeps it unless it is done at once. -/
def begin (state : State ι M) (thread : Nat) (request : Request ι M) : Option (State ι M) :=
  match request.acquire thread state.lock, request.enroll state.registered with
  | some lock, some registered =>
    match request.start state.notifier with
    | .enters calls phase =>
      some { state with
        lock, registered
        threads := Function.update state.threads thread phase
        history := state.history ++ [⟨thread, request, calls, [], none⟩] }
    | .passes notifier outcome =>
      some { state with
        notifier, registered
        history := state.history ++ [⟨thread, request, [], [], some outcome⟩] }
  | _, _ => none

def apply (state : State ι M) (thread : Nat) : Effect ι M → State ι M
  | .goes raw phase =>
    { state with notifier := .opened raw, threads := Function.update state.threads thread phase }
  | .calls registration messages phase =>
    { state.noting thread (.call registration messages) with
      threads := Function.update state.threads thread phase }
  | .ends raw outcome =>
    { state.noting thread (.finish outcome) with
      lock := state.lock.release thread
      notifier := .opened raw
      threads := Function.update state.threads thread .idle }

end State

inductive Action (ι M : Type) where
  | call (thread : Nat) (request : Request ι M)
  | advance (thread : Nat)
  | answer (thread : Nat) (answer : Answer)

/-- Every phase but `idle` is inside a critical section of an open notifier. -/
def step [VecGrowth] : Action ι M → State ι M → Option (State ι M)
  | .call thread request, state =>
    match state.threads thread with
    | .idle => state.begin thread request
    | _ => none
  | .advance thread, state =>
    match state.notifier with
    | .opened raw => ((state.threads thread).advance raw).map (state.apply thread)
    | .closed => none
  | .answer thread answer, state =>
    match state.notifier with
    | .opened raw =>
      ((state.threads thread).answered raw answer).map ((state.noting thread (.answer answer)).apply thread)
    | .closed => none

def initial : State ι M where
  lock := .free
  notifier := .new
  threads _ := .idle
  registered := 0
  history := []

/-- For the same uses one after the other: the answers that the listeners are going
to give, and the calls made so far. -/
structure Script (ι M : Type) where
  answers : List Answer
  calls : List (Registration ι × List M)
deriving DecidableEq

/-- Listeners that answer by the script; where it is silent, the run stops. -/
def recite : Receive M (Registration ι) (Script ι M) := fun registration messages script =>
  let calls := script.calls ++ [(registration, messages)]
  match script.answers with
  | [] => .error .outOfFuel ⟨[], calls⟩
  | .ok alive :: rest => .ok alive ⟨rest, calls⟩
  | .error message :: rest => .error (.panicked message) ⟨rest, calls⟩

/-- A result of some type, as what a method returns. -/
def outcomeOf {α : Type} (value : α → Option Nat) :
    Notifier (Registration ι) × Result Failure W α → Notifier (Registration ι) × Result Failure W (Option Nat)
  | (notifier, .ok result world) => (notifier, .ok (value result) world)
  | (notifier, .error failure world) => (notifier, .error failure world)

/-- The method as a function of a notifier that nobody else uses. -/
def Request.run [VecGrowth] (receive : Receive M (Registration ι) W) (notifier : Notifier (Registration ι))
    (world : W) : Request ι M → Notifier (Registration ι) × Result Failure W (Option Nat)
  | .notifyMany messages => outcomeOf (fun _ => none) (notifier.notifyMany receive messages world)
  | .listen registration => outcomeOf (fun _ => none) (notifier.listen receive registration world)
  | .count => outcomeOf some (notifier.count receive world)
  | .close => (notifier.close, .ok none world)

/-- The end of a method, as the result of running it. -/
def Outcome.result (world : W) : Outcome → Result Failure W (Option Nat)
  | .ok value => .ok value world
  | .error failure => .error failure world

/-- Run alone between these two states, the method makes the same calls, gets the
same answers and ends the same way. If it has not ended yet, it has made some of
those calls. -/
inductive Record.Explains [VecGrowth] (record : Record ι M) (before after : Notifier (Registration ι)) : Prop
  | finished {outcome : Outcome} : record.outcome = some outcome →
      record.request.run recite before ⟨record.answers, []⟩ = (after, outcome.result ⟨[], record.calls⟩) →
      record.Explains before after
  | unfinished {outcome : Outcome} {calls : List (Registration ι × List M)} : record.outcome = none →
      record.calls <+: calls →
      record.request.run recite before ⟨record.answers, []⟩ = (after, outcome.result ⟨[], calls⟩) →
      record.Explains before after

/-- The uses could have happened one after the other, in this order. -/
abbrev Serial [VecGrowth] : Notifier (Registration ι) → List (Record ι M) → Notifier (Registration ι) → Prop :=
  Sequenced Record.Explains

/-- `receive` returned false. -/
def Answer.refuses : Answer → Bool
  | .ok false => true
  | _ => false

/-- The calls of `receive` that have ended, with how they did. -/
def Record.replies (record : Record ι M) : List ((Registration ι × List M) × Answer) :=
  record.calls.zip record.answers

/-- `listen` stores a listener that says it is alive, unless it panics or finds the
notifier closed. -/
def Record.stores (record : Record ι M) : Option (Registration ι) :=
  match record.request, record.outcome, record.answers with
  | .listen registration, some (.ok _), .ok true :: _ => some registration
  | _, _, _ => none

def stored (history : List (Record ι M)) : List (Registration ι) := history.filterMap Record.stores

/-- What the uses of one thread have of something, in their order. -/
def gather {α : Type} (part : Record ι M → List α) (thread : Nat) (history : List (Record ι M)) : List α :=
  (history.filter fun record => record.thread = thread).flatMap part

section Denied
variable [DecidableEq ι]

def Record.denies (registration : Registration ι) (record : Record ι M) : Bool :=
  record.replies.any fun reply => reply.1.1 = registration && reply.2.refuses

/-- Some call on it answered false. -/
def denied (registration : Registration ι) (history : List (Record ι M)) : Bool :=
  history.any fun record => record.denies registration

end Denied

end Nosy.SharedNotifier
