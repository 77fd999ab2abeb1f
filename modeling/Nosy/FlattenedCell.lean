import Mathlib.Algebra.Group.Nat.Defs
import Nosy.General.Transition
import Nosy.Source

/-! One flattened source over a cell of cell sources: cell 0 is the outer cell, every
other cell is an inner one, and the flattened source is number 0. -/

namespace Nosy.Sources.FlattenedCell
open EStateM (Result)

/-- What a cell holds: the source of an inner cell, or data. -/
inductive Value (T : Type) where
  | source (inner : Nat)
  | plain (value : T)
deriving DecidableEq, Repr

variable {T : Type}

def asSource : Value T → Option (Source (Value T))
  | .source inner => some (.cell (inner + 1))
  | .plain _ => none

def flattened : Source (Value T) := .flatten 0

/-- What `Cell::set` can be called with on the outer cell and on an inner one. -/
inductive Change (T : Type) where
  | outer (inner : Nat)
  | inner (inner : Nat) (value : T)

def Change.cell : Change T → Nat
  | .outer _ => 0
  | .inner id _ => id + 1

def Change.value : Change T → Value T
  | .outer id => .source id
  | .inner _ value => .plain value

def values (inner : Nat) (data : Nat → T) : Nat → Value T
  | 0 => .source inner
  | id + 1 => .plain (data id)

section Steps
variable [VecGrowth]

/-- `Flatten::new` on the outer cell. -/
def create (fuel inner : Nat) (data : Nat → T) (alive : Nat → Bool) : Option (World (Value T)) :=
  finished (newFlatten fuel 0 (.cell 0) (initial (values inner data) alive))

/-- Sequential use, with what happened so far. -/
structure History (T : Type) where
  world : World (Value T)
  /-- How often the outer cell was set. -/
  sets : Nat
  /-- What the outer cell held at the last `get`. -/
  seen : Option (Value T)

inductive Action (T : Type) where
  | set (change : Change T)
  | get
  | listen (user : Nat)

def step (fuel : Nat) : Action T → History T → Option (History T)
  | .set change, history =>
    (finished (Sources.set fuel change.cell change.value history.world)).map fun world =>
      { history with world, sets := if change.cell = 0 then history.sets + 1 else history.sets }
  | .get, history =>
    (finished (flattened.get asSource fuel history.world)).map fun world =>
      { history with world, seen := some (history.world.cells 0).value }
  | .listen user, history =>
    (finished (flattened.listen fuel (.user user) history.world)).map fun world => { history with world }

end Steps

/-- The counter of outer changes has not come round to zero since it was last
looked at, unless the outer cell again holds what it held then. -/
def Recent : Action T → History T → Prop
  | .get, history =>
    history.seen = none ∨ ¬ 2 ^ 32 ∣ history.sets ∨ history.seen = some (history.world.cells 0).value
  | _, _ => True

end Nosy.Sources.FlattenedCell
