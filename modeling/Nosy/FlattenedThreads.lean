import Nosy.FlattenedCell

/-! Concurrent use of a flattened cell. A call of `get` takes the steps of
`Flatten::get_source_and_listen_if_new` one at a time and then reads the inner
source; `Cell::set` replaces the value in one step and notifies in another. -/

namespace Nosy.Sources.FlattenedThreads
open FlattenedCell
open EStateM (Result)

/-- Where a call of `get` is. `seen` is how often the outer cell had notified when
the call loaded the generation it needs; the code does not have it. -/
inductive Phase (T : Type) where
  | idle
  | compare (needed : UInt32) (seen : Nat)
  | fetch (needed : UInt32) (seen : Nat)
  | listen (needed : UInt32) (seen : Nat) (source : Source (Value T))
  | store (needed : UInt32) (seen : Nat) (new : State (Value T))
  | read (source : Source (Value T))
  | done (value : Value T)

structure System (T : Type) where
  world : World (Value T)
  calls : Nat → Phase T
  /-- For each thread that sets cells, the one whose value it has replaced and
  whose listeners it has not notified yet. -/
  pending : Nat → Option Nat
  /-- How often the outer cell has notified. -/
  notified : Nat
  /-- What the call had seen that stored the cached state. -/
  cachedSeen : Nat

inductive Action (T : Type) where
  /-- The next step of a call of `get`. -/
  | get (call : Nat)
  | replace (setter : Nat) (change : Change T)
  | notify (setter : Nat)
  | listen (user : Nat)
  | die (user : Nat)

variable {T : Type}

def System.new (world : World (Value T)) : System T where
  world := world
  calls _ := .idle
  pending _ := none
  notified := 0
  cachedSeen := 0

/-- The first look at the cached state accepts it. -/
def accepts (world : World (Value T)) (needed : UInt32) : Bool :=
  ((world.flattens 0).bind (·.current needed)).isSome

/-- The second look finds that somebody else's state is to be used. -/
def yields (world : World (Value T)) (needed : UInt32) : Bool :=
  match (world.flattens 0).bind (·.state) with
  | some old => old.generation ≥ needed
  | none => false

section Steps
variable [VecGrowth]

def System.setCall (system : System T) (call : Nat) (phase : Phase T) : System T :=
  { system with calls := Function.update system.calls call phase }

/-- The next step of a call in this phase. -/
def advance (fuel call : Nat) (system : System T) : Phase T → Option (System T)
  | .idle =>
    (system.world.flattens 0).map fun shared =>
      system.setCall call (.compare shared.generationFromListening system.notified)
  | .compare needed seen =>
    (system.world.flattens 0).map fun shared =>
      match shared.current needed with
      | some source => system.setCall call (.read source)
      | none => system.setCall call (.fetch needed seen)
  | .fetch needed seen =>
    (system.world.flattens 0).bind fun shared =>
      match shared.sourceOfSource.get asSource fuel system.world with
      | .error _ _ => none
      | .ok value after =>
        (asSource value).map fun source => { system with world := after }.setCall call (.listen needed seen source)
  | .listen needed seen source =>
    let gate := system.world.nextGate
    match source.listen fuel (.inner 0 gate) system.world.openGate with
    | .error _ _ => none
    | .ok () after => some ({ system with world := after }.setCall call (.store needed seen ⟨0, source, gate⟩))
  | .store needed seen new =>
    let (source, after) := system.world.store 0 needed new
    let cachedSeen := if yields system.world needed then system.cachedSeen else seen
    some ({ system with world := after, cachedSeen }.setCall call (.read source))
  | .read source =>
    match source.get asSource fuel system.world with
    | .error _ _ => none
    | .ok value after => some ({ system with world := after }.setCall call (.done value))
  | .done _ => none

def step (fuel : Nat) : Action T → System T → Option (System T)
  | .get call, system => advance fuel call system (system.calls call)
  | .replace setter change, system =>
    match system.pending setter with
    | some _ => none
    | none => some { system with
        world := system.world.replace change.cell change.value
        pending := Function.update system.pending setter (some change.cell) }
  | .notify setter, system =>
    match system.pending setter with
    | none => none
    | some cell =>
      (finished (World.notify fuel (.cell cell) system.world)).map fun world => { system with
        world
        pending := Function.update system.pending setter none
        notified := if cell = 0 then system.notified + 1 else system.notified }
  | .listen user, system =>
    (finished (flattened.listen fuel (.user user) system.world)).map fun world => { system with world }
  | .die user, system => some { system with world := Sources.die user system.world }

end Steps

/-- A cached state is accepted only from a call that had seen as much, and replaced
only if it is from a call that had seen no more. -/
def Phase.Fresh (system : System T) : Phase T → Prop
  | .compare needed seen => accepts system.world needed = true → seen ≤ system.cachedSeen
  | .store needed seen _ =>
    if yields system.world needed then seen ≤ system.cachedSeen else system.cachedSeen ≤ seen
  | _ => True

def Fresh : Action T → System T → Prop
  | .get call, system => (system.calls call).Fresh system
  | _, _ => True

instance (system : System T) : (phase : Phase T) → Decidable (phase.Fresh system)
  | .compare needed seen => inferInstanceAs (Decidable (accepts system.world needed = true → seen ≤ system.cachedSeen))
  | .store needed seen _ =>
    inferInstanceAs (Decidable (if yields system.world needed then seen ≤ system.cachedSeen else system.cachedSeen ≤ seen))
  | .idle | .fetch _ _ | .listen _ _ _ | .read _ | .done _ => .isTrue trivial

instance : (action : Action T) → (system : System T) → Decidable (Fresh action system)
  | .get call, system => inferInstanceAs (Decidable ((system.calls call).Fresh system))
  | .replace _ _, _ | .notify _, _ | .listen _, _ | .die _, _ => .isTrue trivial

end Nosy.Sources.FlattenedThreads
