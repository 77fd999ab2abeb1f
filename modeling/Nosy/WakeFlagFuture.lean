import Nosy.WakeFlag

/-! Waiting on a `WakeFlag`, through the futures of `wait()` or through the `Stream`.
Both enter `WakeFlagShared::poll`; both borrow the flag mutably, so that there is one
future at a time and no stream beside it. -/

namespace Nosy.WakeFlag

/-- Who is inside `WakeFlagShared::poll`. -/
inductive Caller where
  | future
  | stream
deriving DecidableEq, Repr

/-- What is seen from outside. A signal happens when `notified` is stored; the sender
is a listener that received a non-empty batch, or `WakeFlag::notify`. -/
inductive Event where
  | signal (sender : Option Nat)
  | returned (result : Poll)
deriving DecidableEq, Repr

def Event.isSignal : Event → Bool
  | .signal _ => true
  | .returned _ => false

structure Waiting where
  flag : State
  /-- The `WakeFlagFuture` of the last `wait()`, unless it was dropped: its `done`. -/
  future : Option Bool
  caller : Option Caller
  /-- The history, which no step reads. -/
  log : List Event
deriving DecidableEq

inductive Wait where
  /-- `WakeFlag::wait`, which only makes the future. -/
  | wait
  /-- `WakeFlagFuture::poll` is called. -/
  | poll
  /-- `Stream::poll_next` is called. -/
  | pollNext
  | dropFuture
  /-- `receive(&[])` of a listener. -/
  | receiveEmpty (listener : Nat)
  | shared (action : Action)
deriving DecidableEq, Repr

/-- What `poll` returned, if this step was its last. -/
def returned (action : Action) (after : State) : Option Poll :=
  match action, after.task with
  | .swap, .idle last | .readCount, .idle last => last
  | _, _ => none

/-- The future or the stream passes on what `poll` returned. -/
def Waiting.finish (waiting : Waiting) : Option Poll → Waiting
  | none => waiting
  | some result => { waiting with
      future :=
        match waiting.caller, result with
        | some .future, .ready _ => some true
        | _, _ => waiting.future
      caller := none
      log := waiting.log ++ [.returned result] }

/-- The signals that a step sends. -/
def Action.signals : Action → List Event
  | .receiveStore listener => [.signal (some listener)]
  | .notifyStore => [.signal none]
  | _ => []

/-- A step of `poll` is taken only inside of a call. -/
def Waiting.permits (waiting : Waiting) : Action → Bool
  | .swap | .readCount | .register => waiting.caller.isSome
  | _ => true

namespace Waiting

def step : Wait → Waiting → Option Waiting
  | .wait, waiting =>
    if waiting.future = none ∧ waiting.caller = none then some { waiting with future := some false } else none
  | .poll, waiting =>
    match waiting.future, waiting.caller with
    | some false, none => some { waiting with caller := some .future }
    | some true, none => some waiting -- `assert!(!self.done)` panics, and nothing was touched
    | _, _ => none
  | .pollNext, waiting =>
    if waiting.future = none ∧ waiting.caller = none then some { waiting with caller := some .stream } else none
  | .dropFuture, waiting =>
    match waiting.future, waiting.caller with
    | some _, none => some { waiting with future := none }
    | _, _ => none
  | .receiveEmpty listener, waiting => if listener ∈ waiting.flag.alive then some waiting else none
  | .shared action, waiting =>
    if waiting.permits action then
      (WakeFlag.step action waiting.flag).map fun flag =>
        { waiting with flag, log := waiting.log ++ action.signals }.finish (returned action flag)
    else none

def new (wakeImmediately : Bool) : Waiting := ⟨initial wakeImmediately, none, none, []⟩

end Waiting
end Nosy.WakeFlag
