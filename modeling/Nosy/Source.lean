import Mathlib.Logic.Function.Basic
import Nosy.Notifier

/-! Cells and the sources derived from them. Cells, flattened sources and gates
are objects with identity and are referred to by number; all of them are kept
alive by somebody, except that a `Cell` may be dropped while its sources are not. -/

namespace Nosy.Sources
open EStateM (Result)

inductive Source (V : Type) where
  /-- `Cell::as_source`, or the cell itself. -/
  | cell (id : Nat)
  | constant (value : V)
  | map (function : V → V) (source : Source V)
  | flatten (id : Nat)

inductive Listener where
  /-- A listener from outside, with a destination of its own. -/
  | user (id : Nat)
  /-- `OuterListener` of a flattened source. -/
  | outer (flatten : Nat)
  /-- `InnerListener`: a gated forwarder to the notifier of a flattened source. -/
  | inner (flatten gate : Nat)
deriving DecidableEq, Repr

structure CellSource (V : Type) where
  value : V
  notifier : Notifier Listener

structure State (V : Type) where
  generation : UInt32
  source : Source V
  gate : Nat

structure Inner (V : Type) where
  sourceOfSource : Source V
  state : Option (State V)
  generationFromListening : UInt32
  notifier : Notifier Listener

structure User where
  alive : Bool
  /-- Messages received while alive. -/
  received : Nat
deriving DecidableEq, Repr

structure World (V : Type) where
  cells : Nat → CellSource V
  flattens : Nat → Option (Inner V)
  /-- Gates that exist and were not dropped. -/
  gates : Nat → Bool
  nextGate : Nat
  users : Nat → User

/-- Where a notifier lives. -/
inductive Place where
  | cell (id : Nat)
  | flatten (id : Nat)
deriving DecidableEq, Repr

variable {V : Type}

namespace World

def notifierAt (world : World V) : Place → Option (Notifier Listener)
  | .cell id => some (world.cells id).notifier
  | .flatten id => (world.flattens id).map (·.notifier)

def setInner (world : World V) (id : Nat) (change : Inner V → Inner V) : World V :=
  { world with flattens := Function.update world.flattens id ((world.flattens id).map change) }

def setNotifier (world : World V) (place : Place) (notifier : Notifier Listener) : World V :=
  match place with
  | .cell id => { world with cells := Function.update world.cells id { world.cells id with notifier } }
  | .flatten id => world.setInner id ({ · with notifier })

/-- `generation_from_listening.fetch_add(1)`, which wraps. -/
def advance (world : World V) (id : Nat) : World V :=
  world.setInner id fun inner => { inner with generationFromListening := inner.generationFromListening + 1 }

def tell (world : World V) (id : Nat) (messages : Nat) : World V :=
  let user := world.users id
  { world with users := Function.update world.users id { user with received := user.received + messages } }

def openGate (world : World V) : World V :=
  { world with gates := Function.update world.gates world.nextGate true, nextGate := world.nextGate + 1 }

def closeGate (world : World V) (gate : Nat) : World V :=
  { world with gates := Function.update world.gates gate false }

/-- Run an operation of the notifier at `place`. Its lock is left out: a call that comes back
to the same notifier is let through here, where the source panics or never returns. -/
def operate {α : Type} (place : Place) (operation : Notifier Listener → World V →
    Notifier Listener × Result Failure (World V) α) : EStateM Failure (World V) α := fun world =>
  match world.notifierAt place with
  | none => .error .illTyped world
  | some notifier =>
    match operation notifier world with
    | (updated, .ok value after) => .ok value (after.setNotifier place updated)
    | (updated, .error failure after) => .error failure (after.setNotifier place updated)

end World

/-- `receive`, where `notifyMany` sends through the notifier of a flattened source. -/
def Listener.receive (notifyMany : Nat → List Unit → EStateM Failure (World V) Unit) :
    Receive Unit Listener (World V)
  | .user id, messages, world =>
    if (world.users id).alive then
      .ok true (if messages.isEmpty then world else world.tell id messages.length)
    else .ok false world
  | .outer id, messages, world =>
    if messages.isEmpty then .ok true world
    else
      match notifyMany id [()] (world.advance id) with
      | .error failure after => .error failure after
      | .ok () after => .ok true after
  | .inner id gate, messages, world =>
    if world.gates gate then
      match notifyMany id messages world with
      | .error failure after => .error failure after
      | .ok () after => .ok true after
    else .ok false world

namespace World

/-- `fuel` bounds the length of a chain of notifiers. -/
def notifyMany : Nat → Nat → List Unit → EStateM Failure (World V) Unit
  | 0, _, _, world => .error .outOfFuel world
  | fuel + 1, id, messages, world =>
    operate (.flatten id) (Notifier.notifyMany (Listener.receive (notifyMany fuel)) messages) world

def receive (fuel : Nat) : Receive Unit Listener (World V) := Listener.receive (notifyMany fuel)

def notify (fuel : Nat) (place : Place) : EStateM Failure (World V) Unit :=
  operate place (Notifier.notify (receive fuel) ())

end World

/-- `Listen::listen`. A map passes the listener on, a constant drops it. -/
def Source.listen [VecGrowth] (fuel : Nat) (listener : Listener) : Source V → EStateM Failure (World V) Unit
  | .cell id => World.operate (.cell id) (Notifier.listen (World.receive fuel) listener)
  | .constant _ => fun world => .ok () world
  | .map _ source => source.listen fuel listener
  | .flatten id => World.operate (.flatten id) (Notifier.listen (World.receive fuel) listener)

/-- `Flatten::get_source_and_listen_if_new` takes the lock twice. The first time: is
the cached source new enough? -/
def Inner.current (inner : Inner V) (needed : UInt32) : Option (Source V) :=
  match inner.state with
  | some state => if state.generation = needed then some state.source else none
  | none => none

/-- The second time: store the new state, unless somebody else did. Whichever state
is dropped, its gate is. -/
def World.store (world : World V) (id : Nat) (needed : UInt32) (new : State V) : Source V × World V :=
  match (world.flattens id).bind (·.state) with
  | none => (new.source, world.setInner id ({ · with state := some new }))
  | some old =>
    if old.generation ≥ needed then (old.source, world.closeGate new.gate)
    else (new.source, (world.setInner id ({ · with state := some new })).closeGate old.gate)

section Get
variable [VecGrowth] (asSource : V → Option (Source V))

/-- `get` reads `source_of_source`; a value that is not a source is excluded by its type. -/
def getSourceAndListenIfNew (get : Source V → EStateM Failure (World V) V) (fuel : Nat) (id : Nat) :
    EStateM Failure (World V) (Source V) := fun world =>
  match world.flattens id with
  | none => .error .illTyped world
  | some inner =>
    let needed := inner.generationFromListening
    match inner.current needed with
    | some source => .ok source world
    | none =>
      match get inner.sourceOfSource world with
      | .error failure after => .error failure after
      | .ok value after =>
        match asSource value with
        | none => .error .illTyped after
        | some source =>
          let gate := after.nextGate
          match source.listen fuel (.inner id gate) after.openGate with
          | .error failure last => .error failure last
          | .ok () listened =>
            let (source, last) := listened.store id needed ⟨0, source, gate⟩
            .ok source last

/-- `Source::get`, given that of flattened sources. -/
def Source.getWith (flattened : Nat → EStateM Failure (World V) V) : Source V → EStateM Failure (World V) V
  | .cell id, world => .ok (world.cells id).value world
  | .constant value, world => .ok value world
  | .map function source, world =>
    match source.getWith flattened world with
    | .error failure after => .error failure after
    | .ok value after => .ok (function value) after
  | .flatten id, world => flattened id world

/-- `Flatten::get`; `fuel` bounds the nesting. -/
def getFlatten : Nat → Nat → EStateM Failure (World V) V
  | 0, _, world => .error .outOfFuel world
  | fuel + 1, id, world =>
    match getSourceAndListenIfNew asSource (Source.getWith (getFlatten fuel)) fuel id world with
    | .error failure after => .error failure after
    | .ok source after => source.getWith (getFlatten fuel) after

def Source.get (fuel : Nat) (source : Source V) : EStateM Failure (World V) V :=
  source.getWith (getFlatten asSource fuel)

end Get

def World.addFlatten (world : World V) (id : Nat) (sourceOfSource : Source V) : World V :=
  { world with flattens := Function.update world.flattens id (some ⟨sourceOfSource, none, 0, .new⟩) }

/-- `Flatten::new`. -/
def newFlatten [VecGrowth] (fuel : Nat) (id : Nat) (sourceOfSource : Source V) : EStateM Failure (World V) Unit :=
  fun world => sourceOfSource.listen fuel (.outer id) (world.addFlatten id sourceOfSource)

/-- The first step of `Cell::set`. -/
def World.replace (world : World V) (id : Nat) (value : V) : World V :=
  { world with cells := Function.update world.cells id { world.cells id with value } }

def set (fuel : Nat) (id : Nat) (value : V) : EStateM Failure (World V) Unit := fun world =>
  World.notify fuel (.cell id) (world.replace id value)

/-- `Drop` of the `Cell`; its sources remain. -/
def dropCell (id : Nat) (world : World V) : World V := world.setNotifier (.cell id) .closed

/-- The destination of a user's listener is dropped. -/
def die (id : Nat) (world : World V) : World V :=
  { world with users := Function.update world.users id { world.users id with alive := false } }

/-- Whole operations, one at a time. -/
inductive Action (V : Type) where
  | set (cell : Nat) (value : V)
  | dropCell (cell : Nat)
  | newFlatten (id : Nat) (sourceOfSource : Source V)
  | get (source : Source V)
  | listen (source : Source V) (user : Nat)
  | die (user : Nat)

def finished {α : Type} : Result Failure (World V) α → Option (World V)
  | .ok _ after => some after
  | .error _ _ => none

/-- A cell that was dropped cannot be set or dropped again, and a flattened source
is created once. -/
def step [VecGrowth] (asSource : V → Option (Source V)) (fuel : Nat) : Action V → World V → Option (World V)
  | .set id value, world =>
    match (world.cells id).notifier with
    | .opened _ => finished (set fuel id value world)
    | .closed => none
  | .dropCell id, world =>
    match (world.cells id).notifier with
    | .opened _ => some (dropCell id world)
    | .closed => none
  | .newFlatten id sourceOfSource, world =>
    match world.flattens id with
    | none => finished (newFlatten fuel id sourceOfSource world)
    | some _ => none
  | .get source, world => finished (source.get asSource fuel world)
  | .listen source user, world => finished (source.listen fuel (.user user) world)
  | .die user, world => some (die user world)

/-- Cells with their first values, and no derived source that needs an object. -/
def initial (values : Nat → V) (alive : Nat → Bool) : World V where
  cells id := ⟨values id, .new⟩
  flattens _ := none
  gates _ := false
  nextGate := 0
  users id := ⟨alive id, 0⟩

/-- The value of a source in itself: for a flattened one, `source_of_source.get().get()`. -/
inductive Denotes (asSource : V → Option (Source V)) (world : World V) : Source V → V → Prop where
  | cell (id : Nat) : Denotes asSource world (.cell id) (world.cells id).value
  | constant (value : V) : Denotes asSource world (.constant value) value
  | map (function : V → V) {source : Source V} {value : V} : Denotes asSource world source value →
      Denotes asSource world (.map function source) (function value)
  | flatten {id : Nat} {sourceOfSource inner : Source V} {value result : V} :
      (world.flattens id).map (·.sourceOfSource) = some sourceOfSource → Denotes asSource world sourceOfSource value →
      asSource value = some inner → Denotes asSource world inner result → Denotes asSource world (.flatten id) result

end Nosy.Sources
