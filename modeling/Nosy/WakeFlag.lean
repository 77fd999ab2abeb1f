import Mathlib.Data.Finset.Card
import Nosy.General.Transition

/-! `WakeFlag` and its listeners, one atomic access at a time. One task polls;
any number of listeners receive, are cloned and are dropped beside it. The task
owns the flag, so `shared.upgrade()` always succeeds in a listener. The `AtomicWaker` of
`futures_util` is one linearizable slot: `register` fills it, `wake` takes what is in it. -/

namespace Nosy.WakeFlag

inductive Poll where
  | ready (answer : Bool)
  | pending
deriving DecidableEq, Repr

/-- `poll` calls `get_and_clear` before and after registering the waker. -/
inductive Round where
  | first
  | second
deriving DecidableEq, Repr

/-- Where the task is in `WakeFlagShared::poll`. -/
inductive Task where
  /-- Not in a call; `last` is the result of the latest one. -/
  | idle (last : Option Poll)
  /-- `notified` was swapped and had been false; next, read `strong_count`. -/
  | counting (round : Round)
  | registering
  /-- The waker is registered; next, swap `notified` again. -/
  | swapping
deriving DecidableEq, Repr

structure State where
  notified : Bool
  /-- Listeners that exist and whose `Drop::drop` has not called `wake` yet. -/
  alive : Finset Nat
  /-- Listeners whose `Drop::drop` has returned, with `_alive` still to be dropped. -/
  dropping : Finset Nat
  /-- Calls of `receive` that have stored `notified` and are about to call `wake`. -/
  receiving : List Nat
  /-- Calls of `WakeFlag::notify` at the same point. -/
  notifying : Nat
  /-- The `AtomicWaker` holds the task's waker. -/
  slot : Bool
  /-- The waker was invoked since `register` last stored it. -/
  woken : Bool
  task : Task
deriving DecidableEq

/-- `listeners_alive.strong_count()`: every listener owns one `_alive`. -/
def State.strongCount (state : State) : Nat := state.alive.card + state.dropping.card

/-- `AtomicWaker::wake` takes the waker, if there is one, and invokes it. -/
def State.wake (state : State) : State :=
  if state.slot then { state with slot := false, woken := true } else state

@[simp] theorem wake_task (state : State) : state.wake.task = state.task := by
  unfold State.wake; split <;> rfl

@[simp] theorem wake_notified (state : State) : state.wake.notified = state.notified := by
  unfold State.wake; split <;> rfl

@[simp] theorem wake_alive (state : State) : state.wake.alive = state.alive := by
  unfold State.wake; split <;> rfl

@[simp] theorem wake_dropping (state : State) : state.wake.dropping = state.dropping := by
  unfold State.wake; split <;> rfl

@[simp] theorem wake_receiving (state : State) : state.wake.receiving = state.receiving := by
  unfold State.wake; split <;> rfl

/-- `notified.swap(false)` in `get_and_clear`. -/
def State.swapNotified (state : State) (round : Round) : State :=
  if state.notified then { state with notified := false, task := .idle (some (.ready true)) }
  else { state with task := .counting round }

/-- The read of `strong_count` in `get_and_clear`, and what `poll` does next. -/
def State.readCount (state : State) (round : Round) : State :=
  if state.strongCount = 0 then { state with task := .idle (some (.ready false)) }
  else match round with
    | .first => { state with task := .registering }
    | .second => { state with task := .idle (some .pending) }

inductive Action where
  | swap
  | readCount
  | register
  /-- `notify_message` in a `receive` of a non-empty batch: store, then wake. -/
  | receiveStore (listener : Nat)
  | receiveWake (listener : Nat)
  | notifyStore
  | notifyWake
  | clone (listener copy : Nat)
  /-- The body of `Drop::drop`, then the drop of the fields. -/
  | dropWake (listener : Nat)
  | dropRelease (listener : Nat)
deriving DecidableEq, Repr

/-- A listener is borrowed while it receives, so it is not dropped then. -/
def step : Action → State → Option State
  | .swap, state =>
    match state.task with
    | .idle _ => some (state.swapNotified .first)
    | .swapping => some (state.swapNotified .second)
    | _ => none
  | .readCount, state =>
    match state.task with
    | .counting round => some (state.readCount round)
    | _ => none
  | .register, state =>
    match state.task with
    | .registering => some { state with slot := true, woken := false, task := .swapping }
    | _ => none
  | .receiveStore listener, state =>
    if listener ∈ state.alive then
      some { state with notified := true, receiving := listener :: state.receiving }
    else none
  | .receiveWake listener, state =>
    if listener ∈ state.receiving then
      some { state with receiving := state.receiving.erase listener }.wake
    else none
  | .notifyStore, state => some { state with notified := true, notifying := state.notifying + 1 }
  | .notifyWake, state =>
    if 0 < state.notifying then some { state with notifying := state.notifying - 1 }.wake else none
  | .clone listener copy, state =>
    if listener ∈ state.alive ∧ copy ∉ state.alive ∧ copy ∉ state.dropping then
      some { state with alive := insert copy state.alive }
    else none
  | .dropWake listener, state =>
    if listener ∈ state.alive ∧ listener ∉ state.receiving then
      some { state with
        alive := state.alive.erase listener, dropping := insert listener state.dropping }.wake
    else none
  | .dropRelease listener, state =>
    if listener ∈ state.dropping then some { state with dropping := state.dropping.erase listener }
    else none

/-- What each step does, and when it can be taken. -/
inductive Stepped (state : State) : Action → State → Prop
  | swapFirst {last : Option Poll} : state.task = .idle last → Stepped state .swap (state.swapNotified .first)
  | swapSecond : state.task = .swapping → Stepped state .swap (state.swapNotified .second)
  | readCount {round : Round} : state.task = .counting round → Stepped state .readCount (state.readCount round)
  | register : state.task = .registering →
      Stepped state .register { state with slot := true, woken := false, task := .swapping }
  | receiveStore {listener : Nat} : listener ∈ state.alive →
      Stepped state (.receiveStore listener)
        { state with notified := true, receiving := listener :: state.receiving }
  | receiveWake {listener : Nat} : listener ∈ state.receiving →
      Stepped state (.receiveWake listener) { state with receiving := state.receiving.erase listener }.wake
  | notifyStore : Stepped state .notifyStore { state with notified := true, notifying := state.notifying + 1 }
  | notifyWake : 0 < state.notifying →
      Stepped state .notifyWake { state with notifying := state.notifying - 1 }.wake
  | clone {listener copy : Nat} : listener ∈ state.alive → copy ∉ state.alive → copy ∉ state.dropping →
      Stepped state (.clone listener copy) { state with alive := insert copy state.alive }
  | dropWake {listener : Nat} : listener ∈ state.alive → listener ∉ state.receiving →
      Stepped state (.dropWake listener) { state with
        alive := state.alive.erase listener, dropping := insert listener state.dropping }.wake
  | dropRelease {listener : Nat} : listener ∈ state.dropping →
      Stepped state (.dropRelease listener) { state with dropping := state.dropping.erase listener }

theorem step_cases {action : Action} {state after : State} (stepped : step action state = some after) :
    Stepped state action after := by
  cases action with
  | swap =>
    simp only [step] at stepped
    split at stepped
    next idle =>
      cases stepped
      exact .swapFirst idle
    next swapping =>
      cases stepped
      exact .swapSecond swapping
    · cases stepped
  | readCount | register =>
    simp only [step] at stepped
    split at stepped
    next reached =>
      cases stepped
      constructor
      exact reached
    · cases stepped
  | notifyStore =>
    cases stepped
    exact .notifyStore
  | receiveStore | receiveWake | notifyWake | dropRelease =>
    simp only [step] at stepped
    split at stepped
    next present =>
      cases stepped
      constructor
      exact present
    · cases stepped
  | clone listener copy =>
    simp only [step] at stepped
    split at stepped
    next held =>
      cases stepped
      exact .clone held.1 held.2.1 held.2.2
    · cases stepped
  | dropWake listener =>
    simp only [step] at stepped
    split at stepped
    next held =>
      cases stepped
      exact .dropWake held.1 held.2
    · cases stepped

/-- `WakeFlag::new`, with its one listener. -/
def initial (wakeImmediately : Bool) : State where
  notified := wakeImmediately
  alive := {0}
  dropping := ∅
  receiving := []
  notifying := 0
  slot := false
  woken := false
  task := .idle none

end Nosy.WakeFlag
