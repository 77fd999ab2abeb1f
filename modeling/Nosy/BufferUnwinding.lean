import Nosy.Buffer
import Nosy.Pruning

/-! A `Buffer` whose flush may fail: its notifier can be closed at any time, and
listeners may panic. A panic out of `push` can be caught, or unwind through the
owner of the buffer, which drops it. -/

namespace Nosy.Unwinding
open EStateM (Result)
open Pruning (settled)

variable {ι M : Type} [DecidableEq ι]

/-- A listener whose `receive` may panic after it has changed its state. -/
structure FallibleMachine (M : Type) extends Machine M where
  panics : State → List M → Bool

abbrev States (machine : ι → FallibleMachine M) : Type := (i : ι) → (machine i).State

/-- The machines as they are when they do not panic. -/
abbrev calm (machine : ι → FallibleMachine M) : ι → Machine M := fun i => (machine i).toMachine

/-- Every call is recorded, also one that panics. -/
def call (machine : ι → FallibleMachine M) : Receive M (Registration ι) (Broadcast.World (calm machine)) :=
  fun registration messages world =>
    if (machine registration.listener).panics (world.states registration.listener) messages then
      match Broadcast.call (calm machine) registration messages world with
      | .ok _ after | .error _ after => .error (.panicked "receive") after
    else Broadcast.call (calm machine) registration messages world

def failed {W α : Type} : Result Failure W α → Bool
  | .ok _ _ => false
  | .error _ _ => true

structure Sending (machine : ι → FallibleMachine M) where
  this : Buffer M (Registration ι)
  world : Broadcast.World (calm machine)
  registered : Nat
  pushed : List M
  /-- The last push was left by a panic. -/
  unwinding : Bool
  dropped : Bool
  /-- The buffer's `drop` has panicked during unwinding, which aborts the program. -/
  aborted : Bool

inductive Op (machine : ι → FallibleMachine M) where
  | push (message : M)
  | drop
  | close
  | listen (listener : ι)
  /-- The owner of a destination changes it. -/
  | evolve (listener : ι) (next : (machine listener).State)

variable {machine : ι → FallibleMachine M}

def step [VecGrowth] (capacity : Nat) (op : Op machine) (sending : Sending machine) : Option (Sending machine) :=
  match op with
  | .push message =>
    if sending.dropped then none
    else
      let (this, outcome) := Buffer.push (call machine) capacity message sending.this sending.world
      some { sending with
        this, world := settled outcome, pushed := sending.pushed ++ [message], unwinding := failed outcome }
  | .drop =>
    if sending.dropped then none
    else
      let (this, outcome) := Buffer.drop (call machine) sending.this sending.world
      some { sending with
        this, world := settled outcome, dropped := true, aborted := sending.unwinding && failed outcome }
  | .close => some { sending with this := { sending.this with notifier := sending.this.notifier.close } }
  | .listen listener =>
    let (notifier, outcome) :=
      sending.this.notifier.listen (call machine) ⟨sending.registered, listener⟩ sending.world
    some { sending with
      this := { sending.this with notifier }, world := settled outcome, registered := sending.registered + 1 }
  | .evolve listener next =>
    some { sending with
      world := { sending.world with states := Function.update sending.world.states listener next } }

/-- `notifier.buffer()` on a new notifier. -/
def initial (states : States machine) : Sending machine :=
  ⟨.new .new, ⟨states, []⟩, 0, [], false, false, false⟩

/-- No listener of a table panics at a batch that is passed to one after the other. -/
def tolerates (machine : ι → FallibleMachine M) (messages : List M) :
    List (NotifierEntry (Registration ι)) → States machine → Bool
  | [], _ => true
  | entry :: rest, states =>
    let id := entry.listener.listener
    !(machine id).panics (states id) messages &&
      tolerates machine messages rest (Function.update states id ((machine id).receive (states id) messages).2)

/-- The notifier is open, and nobody panics at the batch. -/
def accepts (machine : ι → FallibleMachine M) (messages : List M) (states : States machine) :
    Notifier (Registration ι) → Bool
  | .opened raw => tolerates machine messages raw.listeners states
  | .closed => false

/-- What the buffer is to keep after every push, returned or not: there is room for the
next one, the unwinding has not panicked again, and no registration is handed a message
twice. -/
structure Intact (capacity : Nat) (sending : Sending machine) : Prop where
  room : sending.dropped = false → sending.this.buffer.length < capacity
  unwound : sending.aborted = false
  once : ∀ registration,
    (Broadcast.callsTo registration sending.world.calls).flatten.Sublist sending.pushed

end Nosy.Unwinding
