import Nosy.SharedNotifier
import Nosy.StoreLock

/-! A shared notifier whose listeners are those of logs: senders, subscribers and those
who drain all run at once. Every step is one of the notifier or of one log; a call of
`receive` begins in both and returns in both. Cloning a message does not panic. -/

namespace Nosy.NotifiedLogs

/-- Who calls a log: a method of the notifier on some thread, or anyone else. -/
abbrev Caller := Nat ⊕ Nat

abbrev Log (M : Type) := StoreLock.State Caller (List M) M

structure State (M : Type) where
  notifier : SharedNotifier.State Nat M
  logs : Nat → Log M

inductive Action (M : Type) where
  | call (thread : Nat) (request : SharedNotifier.Request Nat M)
  | advance (thread : Nat)
  | log (id : Nat) (action : StoreLock.Action Caller (List M) M)

variable {M : Type}

/-- Where the thread has come to a listener, its call begins. -/
def State.ring (thread : Nat) (state : State M) (notifier : SharedNotifier.State Nat M) : Option (State M) :=
  match notifier.within thread with
  | some (registration, messages) =>
    (StoreLock.step (Store.log M) (.call (.inl thread) .listener messages) (state.logs registration.listener)).map
      fun log => ⟨notifier, Function.update state.logs registration.listener log⟩
  | none => some { state with notifier }

/-- What a log does on its own: its listener is called, and goes on; it is drained and
dropped. -/
def admits : StoreLock.Action Caller (List M) M → Bool
  | .call (.inr _) .listener _ | .borrow (.inr _) .take => true
  | .call .. | .borrow .. | .panic .. | .change .. => false
  | .upgrade _ | .acquire _ | .store _ | .replace _ | .unlock _ | .leave _ | .drop => true

/-- The caller that the step returns to, and whether it is told that the log is alive. -/
def returning : StoreLock.Action Caller (List M) M → Log M → Option (Caller × Bool)
  | .upgrade caller, log =>
    match log.phase caller, log.shared.upgrade with
    | .upgrading .., none => some (caller, false)
    | .upgrading .weak [], some _ => some (caller, true)
    | _, _ => none
  | .leave caller, _ => some (caller, true)
  | _, _ => none

/-- The method that called goes on with the answer. -/
def State.hear [VecGrowth] (id : Nat) (state : State M) (log : Log M) : Option (Caller × Bool) → Option (State M)
  | some (.inl thread, alive) =>
    (SharedNotifier.step (.answer thread (.ok alive)) state.notifier).map
      fun notifier => ⟨notifier, Function.update state.logs id log⟩
  | _ => some { state with logs := Function.update state.logs id log }

def step [VecGrowth] : Action M → State M → Option (State M)
  | .call thread request, state =>
    (SharedNotifier.step (.call thread request) state.notifier).bind (state.ring thread)
  | .advance thread, state => (SharedNotifier.step (.advance thread) state.notifier).bind (state.ring thread)
  | .log id action, state =>
    if admits action then
      (StoreLock.step (Store.log M) action (state.logs id)).bind fun log =>
        state.hear id log (returning action (state.logs id))
    else none

def initial : State M := ⟨SharedNotifier.initial, fun _ => StoreLock.initial []⟩

/-- The batches that a thread's uses of the notifier have brought to a log. -/
def brought (id thread : Nat) (history : List (SharedNotifier.Record Nat M)) : List (List M) :=
  ((SharedNotifier.gather (·.calls) thread history).filter fun call => call.1.listener = id).map (·.2)

end Nosy.NotifiedLogs
