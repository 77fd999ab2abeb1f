import Mathlib.Logic.Function.Basic
import Nosy.General.Transition
import Nosy.LoadStore
import Nosy.Notifier

/-! A `Flag` listening to a `Cell`: writers change the cell and then notify, one
reader clears the flag and then reads the cell. The reader owns the flag and the
writers the cell, so neither is dropped during the run. -/

namespace Nosy.DirtyFlag
open EStateM (Result)

inductive Listener where
  /-- `FlagListener` of the reader's flag. -/
  | flag
  /-- Somebody else's listener. -/
  | other (id : Nat)
deriving DecidableEq, Repr

/-- What the listeners act on. -/
structure Shared where
  flag : Bool
  /-- Other listeners that are still interested. -/
  alive : Nat → Bool

/-- The flag is owned, so `weak.upgrade()` succeeds. -/
def receive : Receive Unit Listener Shared
  | .flag, messages, shared => .ok true (if messages.isEmpty then shared else { shared with flag := true })
  | .other id, _, shared => .ok (shared.alive id) shared

/-- Where a writer is in `set`, `set_if_unequal` or `update_mut`. -/
inductive Writer (V : Type) where
  | idle
  /-- `update_mut` has read the value and applied its function. -/
  | updating (value : V)
  /-- The value was replaced and `notify` comes next. -/
  | replaced
deriving DecidableEq, Repr

inductive Reader where
  | between
  /-- `get_and_clear` was called, and `get` was not yet. -/
  | cleared
deriving DecidableEq, Repr

structure State (S V : Type) where
  container : S
  notifier : Notifier Listener
  shared : Shared
  writers : Nat → Writer V
  reader : Reader
  /-- `listen` was called with the flag's listener. -/
  registered : Bool
  lastRead : Option V
  /-- Rounds of the reader that were completed with the flag registered. -/
  rounds : Nat

inductive Action (V : Type) where
  | set (writer : Nat) (value : V)
  | setIfUnequal (writer : Nat) (value : V)
  | updateRead (writer : Nat) (change : V → V)
  | updateReplace (writer : Nat)
  | notify (writer : Nat)
  | getAndClear
  | get
  | register
  | listenOther (id : Nat)
  | die (id : Nat)

variable {S V : Type} [LoadStore S V]

/-- `value_mutex.replace(value)` by a writer that notifies next. -/
def State.replace (state : State S V) (writer : Nat) (value : V) : State S V :=
  { state with
    container := (LoadStore.replace value state.container).2
    writers := Function.update state.writers writer .replaced }

/-- `value_mutex.replace_if_unequal(value)`: an `Err` ends the call. -/
def State.replaceIfUnequal (state : State S V) (writer : Nat) (value : V) : State S V :=
  match LoadStore.replaceIfUnequal value state.container with
  | (.ok _, container) => { state with container, writers := Function.update state.writers writer .replaced }
  | (.error _, container) => { state with container }

def State.listen [VecGrowth] (state : State S V) (listener : Listener) : Option (State S V) :=
  match state.notifier.listen receive listener state.shared with
  | (notifier, .ok () shared) => some { state with notifier, shared }
  | (_, .error _ _) => none

/-- `shared.notifier.notify(&())`, after which the writer's call returns. -/
def State.notify (state : State S V) (writer : Nat) : Option (State S V) :=
  match state.notifier.notify receive () state.shared with
  | (notifier, .ok () shared) =>
    some { state with notifier, shared, writers := Function.update state.writers writer .idle }
  | (_, .error _ _) => none

def step [VecGrowth] : Action V → State S V → Option (State S V)
  | .set writer value, state =>
    match state.writers writer with
    | .idle => some (state.replace writer value)
    | _ => none
  | .setIfUnequal writer value, state =>
    match state.writers writer with
    | .idle => some (state.replaceIfUnequal writer value)
    | _ => none
  | .updateRead writer change, state =>
    match state.writers writer with
    | .idle =>
      let value := change (LoadStore.get state.container)
      some { state with writers := Function.update state.writers writer (.updating value) }
    | _ => none
  | .updateReplace writer, state =>
    match state.writers writer with
    | .updating value => some (state.replace writer value)
    | _ => none
  | .notify writer, state =>
    match state.writers writer with
    | .replaced => state.notify writer
    | _ => none
  | .getAndClear, state =>
    match state.reader with
    | .between => some { state with shared := { state.shared with flag := false }, reader := .cleared }
    | .cleared => none
  | .get, state =>
    match state.reader with
    | .cleared =>
      some { state with
        lastRead := some (LoadStore.get state.container)
        reader := .between
        rounds := if state.registered then state.rounds + 1 else state.rounds }
    | .between => none
  | .register, state => (state.listen .flag).map fun after => { after with registered := true }
  | .listenOther id, state => state.listen (.other id)
  | .die id, state =>
    some { state with shared := { state.shared with alive := Function.update state.shared.alive id false } }

/-- A cell and a flag, just created, and other listeners elsewhere. -/
def initial (value : V) (flag : Bool) (alive : Nat → Bool) : State S V where
  container := LoadStore.new value
  notifier := .new
  shared := ⟨flag, alive⟩
  writers _ := .idle
  reader := .between
  registered := false
  lastRead := none
  rounds := 0

end Nosy.DirtyFlag
