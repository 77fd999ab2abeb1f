import Nosy.General.Transition
import Nosy.SharedNotifier

/-! Shared notifiers that forward to one another. A thread in `receive` of a
`NotifierForwarder` goes into the notifier behind it and comes back when its send there has
ended; it keeps every lock that it has. Any other listener answers as it likes. -/

namespace Nosy.ForwarderNetwork
open SharedNotifier (Answer Outcome Request gather)

/-- A `NotifierForwarder`, or any other listener. -/
inductive Target where
  | forwarder (node : Nat)
  | other (id : Nat)
deriving DecidableEq, Repr

/-- A use that a thread is in. -/
structure Use (M : Type) where
  node : Nat
  request : Request Target M

/-- A use that a thread has been in: for which notifier's forwarder, if for any, and how
it ended. -/
structure Visit (M : Type) where
  source : Option Nat
  node : Nat
  request : Request Target M
  outcome : Outcome

structure State (M : Type) where
  nodes : Nat → SharedNotifier.State Target M
  /-- Somebody else owns the notifier. -/
  owned : Nat → Bool
  /-- The threads that keep it, once for each call. A caller has a clone of its own. -/
  users : Nat → List Nat
  /-- The lock that a thread is waiting for. -/
  waiting : Nat → Option (Nat × Request Target M)
  /-- The uses that it is in, the last one first. -/
  inside : Nat → List (Use M)
  /-- No step reads this history. -/
  visits : Nat → List (Visit M)

inductive Action (M : Type) where
  /-- From outside. The number of a registration does not matter. -/
  | call (thread node : Nat) (request : Request Target M)
  /-- In `receive` of a forwarder. -/
  | upgrade (thread : Nat)
  | acquire (thread : Nat)
  | advance (thread : Nat)
  /-- In `receive` of another listener. -/
  | answer (thread : Nat) (answer : Answer)
  | leave (thread : Nat)
  /-- The owner drops the notifier. -/
  | drop (node : Nat)

variable {M : Type}

/-- The registration gets its number with the lock. -/
def numbered (registered : Nat) : Request Target M → Request Target M
  | .listen registration => .listen { registration with number := registered }
  | request => request

/-- What a forwarder's `receive` returns, or the panic that goes through it. -/
def answerOf : Outcome → Answer
  | .ok _ => .ok true
  | .error (.panicked message) => .error message
  | .error .outOfFuel | .error .illTyped => .error "" -- no use ends so

namespace State

def put (state : State M) (node : Nat) (notifier : SharedNotifier.State Target M) : State M :=
  { state with nodes := Function.update state.nodes node notifier }

/-- The strong count of the `Arc` is positive. -/
def alive (state : State M) (node : Nat) : Bool := state.owned node || !(state.users node).isEmpty

def enter (state : State M) (thread node : Nat) (request : Request Target M) : State M :=
  { state with
    users := Function.update state.users node (thread :: state.users node)
    waiting := Function.update state.waiting thread (some (node, request)) }

/-- The call of `receive` that the thread is in. -/
def facing (state : State M) (thread : Nat) : Option (Nat × Registration Target × List M) :=
  match state.waiting thread, state.inside thread with
  | none, use :: _ => ((state.nodes use.node).within thread).map fun call => (use.node, call)
  | _, _ => none

/-- How the last use of the thread ended. -/
def ended (state : State M) (thread node : Nat) : Option Outcome :=
  (gather (·.outcome.toList) thread (state.nodes node).history).getLast?

/-- The thread drops its reference, and the use is over. -/
def exit (state : State M) (thread : Nat) (use : Use M) (rest : List (Use M)) (outcome : Outcome) : State M :=
  { state with
    users := Function.update state.users use.node ((state.users use.node).erase thread)
    inside := Function.update state.inside thread rest
    visits := Function.update state.visits thread
      (state.visits thread ++ [⟨rest.head?.map (·.node), use.node, use.request, outcome⟩]) }

end State

def step [VecGrowth] : Action M → State M → Option (State M)
  | .call thread node request, state =>
    match state.waiting thread, state.inside thread with
    | none, [] => if state.owned node then some (state.enter thread node request) else none
    | _, _ => none
  | .upgrade thread, state =>
    match state.facing thread with
    | some (source, ⟨_, .forwarder node⟩, messages) =>
      if state.alive node then some (state.enter thread node (.notifyMany messages))
      else (SharedNotifier.step (.answer thread (.ok false)) (state.nodes source)).map (state.put source)
    | _ => none
  | .acquire thread, state =>
    match state.waiting thread with
    | some (node, request) =>
      let request := numbered (state.nodes node).registered request
      (SharedNotifier.step (.call thread request) (state.nodes node)).map fun notifier =>
        { state.put node notifier with
          waiting := Function.update state.waiting thread none
          inside := Function.update state.inside thread (⟨node, request⟩ :: state.inside thread) }
    | none => none
  | .advance thread, state =>
    match state.waiting thread, state.inside thread with
    | none, use :: _ => (SharedNotifier.step (.advance thread) (state.nodes use.node)).map (state.put use.node)
    | _, _ => none
  | .answer thread answer, state =>
    match state.facing thread with
    | some (source, ⟨_, .other _⟩, _) =>
      (SharedNotifier.step (.answer thread answer) (state.nodes source)).map (state.put source)
    | _ => none
  | .leave thread, state =>
    match state.waiting thread, state.inside thread with
    | none, use :: rest =>
      match (state.nodes use.node).threads thread, state.ended thread use.node, rest with
      | .idle, some outcome, [] => some (state.exit thread use [] outcome)
      | .idle, some outcome, below :: others =>
        (SharedNotifier.step (.answer thread (answerOf outcome)) (state.nodes below.node)).map
          ((state.exit thread use (below :: others) outcome).put below.node)
      | _, _, _ => none
    | _, _ => none
  | .drop node, state =>
    if state.owned node then some { state with owned := Function.update state.owned node false } else none

def initial : State M where
  nodes _ := SharedNotifier.initial
  owned _ := true
  users _ := []
  waiting _ := none
  inside _ := []
  visits _ := []

/-- What the forwarders to `target` were called with and did not refuse, as uses of it. -/
def forwarded (target : Nat) (replies : List ((Registration Target × List M) × Answer)) :
    List (Request Target M × Answer) :=
  (replies.filter fun reply => reply.1.1.listener = .forwarder target && !reply.2.refuses).map fun reply =>
    (.notifyMany reply.1.2, reply.2)

end Nosy.ForwarderNetwork
