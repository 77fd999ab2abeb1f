import Nosy.LoadStore
import Nosy.WakeFlagFuture

/-! A task that sleeps on a `WakeFlag` until one of its input cells changes, and then
sets its output cell. The flag's listener was cloned for every input, and is
dropped when the input's `Cell` is; the task keeps the sources. Writers set the
inputs beside it. That a sleeping task is woken rests on the `AtomicWaker` being one
linearizable slot, as in `WakeFlag.State`. -/

namespace Nosy.WokenTask
open WakeFlag (Poll)

/-- Where the task is in its loop. -/
inductive Task (V : Type) where
  /-- `flag.wait().await` -/
  | waiting
  /-- `wait` returned true; what was read from the inputs, and those to be read. -/
  | reading (got : List V) (rest : List Nat)
  /-- `set_if_unequal` has replaced the output's value and notifies next. -/
  | announcing
  /-- `wait` returned false. -/
  | exited
deriving DecidableEq, Repr

structure State (V W : Type) where
  inputs : Nat → Lock V
  /-- The inputs of the calls of `set` that have replaced the value and notify next. -/
  replaced : List Nat
  flag : WakeFlag.State
  task : Task V
  output : Lock W

inductive Action (V : Type) where
  /-- The task, inside of `wait`. -/
  | swap
  | readCount
  | register
  /-- The task, outside. -/
  | read
  | write
  | announce
  /-- A writer; a call that replaced the value stores `notified` and then wakes. -/
  | set (input : Nat) (value : V)
  | setIfUnequal (input : Nat) (value : V)
  | store (input : Nat)
  | wake (input : Nat)
  /-- `Cell::drop` closes the notifier, which drops the listener. -/
  | dropWake (input : Nat)
  | dropRelease (input : Nat)
deriving DecidableEq, Repr

variable {V W : Type} [BEq V] [BEq W]

/-- The loop goes on with what `poll` returned. -/
def resume (inputs : List Nat) : Option Poll → Task V
  | some (.ready true) => .reading [] inputs
  | some (.ready false) => .exited
  | some .pending | none => .waiting

/-- One access of `WakeFlagShared::poll`. -/
def State.poll (inputs : List Nat) (access : WakeFlag.Action) (state : State V W) : Option (State V W) :=
  match state.task with
  | .waiting =>
    (WakeFlag.step access state.flag).map fun flag =>
      { state with flag, task := resume inputs (WakeFlag.returned access flag) }
  | _ => none

/-- A step of the flag's listener. -/
def State.listener (action : WakeFlag.Action) (state : State V W) : Option (State V W) :=
  (WakeFlag.step action state.flag).map fun flag => { state with flag }

/-- `output_cell.set_if_unequal(compute(..))`, up to the notification. -/
def State.write (compute : List V → W) (got : List V) (state : State V W) : State V W :=
  match state.output.replaceIfUnequal (compute got) with
  | (.ok _, output) => { state with output, task := .announcing }
  | (.error _, output) => { state with output, task := .waiting }

def State.put (input : Nat) (lock : Lock V) (state : State V W) : State V W :=
  { state with inputs := Function.update state.inputs input lock, replaced := input :: state.replaced }

/-- `set_if_unequal` by a writer, up to the notification. -/
def State.putIfUnequal (input : Nat) (value : V) (state : State V W) : State V W :=
  match (state.inputs input).replaceIfUnequal value with
  | (.ok _, lock) => state.put input lock
  | (.error _, _) => state

/-- An input exists as long as its listener: both end in `Cell::drop`. Nobody sets a
cell that is being dropped, and nobody drops a cell that is being set. -/
def step (inputs : List Nat) (compute : List V → W) : Action V → State V W → Option (State V W)
  | .swap, state => state.poll inputs .swap
  | .readCount, state => state.poll inputs .readCount
  | .register, state => state.poll inputs .register
  | .read, state =>
    match state.task with
    | .reading got (input :: rest) =>
      some { state with task := .reading (got ++ [(state.inputs input).value]) rest }
    | _ => none
  | .write, state =>
    match state.task with
    | .reading got [] => some (state.write compute got)
    | _ => none
  | .announce, state =>
    match state.task with
    | .announcing => some { state with task := .waiting } -- the output's listeners are not in this state
    | _ => none
  | .set input value, state => if input ∈ state.flag.alive then some (state.put input ⟨value⟩) else none
  | .setIfUnequal input value, state =>
    if input ∈ state.flag.alive then some (state.putIfUnequal input value) else none
  | .store input, state =>
    if input ∈ state.replaced then
      { state with replaced := state.replaced.erase input }.listener (.receiveStore input)
    else none
  | .wake input, state => state.listener (.receiveWake input)
  | .dropWake input, state => if input ∈ state.replaced then none else state.listener (.dropWake input)
  | .dropRelease input, state => state.listener (.dropRelease input)

/-- `WakeFlag::new(true)`, whose listener was cloned and given to every input. -/
def initial (inputs : List Nat) (values : Nat → V) (output : W) : State V W where
  inputs input := ⟨values input⟩
  replaced := []
  flag := { WakeFlag.initial true with alive := inputs.toFinset }
  task := .waiting
  output := ⟨output⟩

/-- The output is what the task makes of the inputs as they are, as far as `==` can tell. -/
def State.Current (inputs : List Nat) (compute : List V → W) (state : State V W) : Prop :=
  let wanted := compute (inputs.map fun input => (state.inputs input).value)
  state.output.value = wanted ∨ (wanted == state.output.value) = true

/-- Nobody is setting or dropping an input. -/
structure State.Quiet (state : State V W) : Prop where
  replaced : state.replaced = []
  received : state.flag.receiving = []
  dropped : state.flag.dropping = ∅

/-- The task has returned to its executor: before its first poll, asleep or done. -/
def State.Parked (state : State V W) : Prop :=
  state.task = .exited ∨
    state.task = .waiting ∧ (state.flag.task = .idle none ∨ state.flag.task = .idle (some .pending))

/-- One thread runs the task and the writers, as `join!` does: each goes on until it
has returned, and none of them awaits anything inside of a call. -/
def Cooperative : Action V → State V W → Prop
  | .swap, state | .readCount, state | .register, state | .read, state | .write, state | .announce, state => state.Quiet
  | .set .., state | .setIfUnequal .., state | .dropWake _, state => state.Quiet ∧ state.Parked
  | .store _, _ | .wake _, _ | .dropRelease _, _ => True

instance (state : State V W) : Decidable state.Quiet :=
  decidable_of_iff (state.replaced = [] ∧ state.flag.receiving = [] ∧ state.flag.dropping = ∅)
    ⟨fun quiet => ⟨quiet.1, quiet.2.1, quiet.2.2⟩, fun quiet => ⟨quiet.replaced, quiet.received, quiet.dropped⟩⟩

instance [DecidableEq V] (state : State V W) : Decidable state.Parked :=
  inferInstanceAs (Decidable (_ ∨ _ ∧ (_ ∨ _)))

instance [DecidableEq V] (action : Action V) (state : State V W) : Decidable (Cooperative action state) :=
  match action with
  | .swap | .readCount | .register | .read | .write | .announce => inferInstanceAs (Decidable state.Quiet)
  | .set .. | .setIfUnequal .. | .dropWake _ => inferInstanceAs (Decidable (state.Quiet ∧ state.Parked))
  | .store _ | .wake _ | .dropRelease _ => inferInstanceAs (Decidable True)

end Nosy.WokenTask
