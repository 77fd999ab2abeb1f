import Nosy.FlattenedCell

/-! Sequential use of one flattened cell, by listeners that come and go. A record
keeps what was asked of it, and what `get` went to. -/

namespace Nosy.Sources.FlattenedUse
open FlattenedCell
open EStateM (Result)

variable {T : Type}

inductive Action (T : Type) where
  | set (change : Change T)
  | get
  | listen (user : Nat)
  | die (user : Nat)

structure Record (T : Type) where
  world : World (Value T)
  /-- How often the outer cell was set. -/
  sets : Nat
  /-- How often it had been at the last `get`. -/
  readAt : Option Nat
  /-- The cell that the last `get` read in the end. -/
  read : Option Nat
  /-- What the outer cell held at the last `get`, of those that were the first or came
  when the number of its changes was not a multiple of 2 ^ 32. -/
  fetched : Option (Value T)
  /-- How many listeners each user has registered while it was alive. -/
  listens : Nat → Nat

section Steps
variable [VecGrowth]

/-- The cell behind the source that `get` goes to. -/
def readsFrom (fuel : Nat) (world : World (Value T)) : Option Nat :=
  match getSourceAndListenIfNew asSource (Source.getWith (getFlatten asSource fuel)) fuel 0 world with
  | .ok (.cell id) _ => some id
  | _ => none

def create (fuel inner : Nat) (data : Nat → T) (alive : Nat → Bool) : Option (Record T) :=
  (FlattenedCell.create fuel inner data alive).map fun world => ⟨world, 0, none, none, none, fun _ => 0⟩

def step (fuel : Nat) : Action T → Record T → Option (Record T)
  | .set change, record =>
    (finished (Sources.set fuel change.cell change.value record.world)).map fun world =>
      { record with world, sets := if change.cell = 0 then record.sets + 1 else record.sets }
  | .get, record =>
    (finished (flattened.get asSource (fuel + 1) record.world)).map fun world =>
      { record with
        world
        readAt := some record.sets
        read := readsFrom fuel record.world
        fetched := if record.readAt ≠ none ∧ 2 ^ 32 ∣ record.sets then record.fetched
          else some (record.world.cells 0).value }
  | .listen user, record =>
    (finished (flattened.listen fuel (.user user) record.world)).map fun world =>
      { record with
        world
        listens := if (record.world.users user).alive then
          Function.update record.listens user (record.listens user + 1) else record.listens }
  | .die user, record => some { record with world := Sources.die user record.world }

/-- `get` would go to the cached source: it finds one without calling
`source_of_source.get()` and without listening to anything. -/
def Cached (world : World (Value T)) : Prop :=
  ∃ source, ∀ get fuel, getSourceAndListenIfNew asSource get fuel 0 world = .ok source world

end Steps

/-- Every subscription to an inner source goes through a gate of its own. -/
def subscriptions (world : World (Value T)) : Nat := world.nextGate

/-- The cache is only needed while the counter of outer changes is at zero. -/
def AtZero : Action T → Record T → Prop
  | .get, record => record.readAt = some record.sets → 2 ^ 32 ∣ record.sets
  | _, _ => True

/-- A gated listener whose gate has not been dropped. -/
def isLiveInner (world : World (Value T)) : Listener → Bool
  | .inner _ gate => world.gates gate
  | _ => false

def liveInner (world : World (Value T)) (id : Nat) : Nat :=
  match (world.cells id).notifier with
  | .opened raw => raw.listeners.countP fun entry => isLiveInner world entry.listener
  | .closed => 0

end Nosy.Sources.FlattenedUse
