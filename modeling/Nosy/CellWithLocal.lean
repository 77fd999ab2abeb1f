import Nosy.LoadStore
import Nosy.Pruning

/-! `CellWithLocal`. Its `set` is left early when the value's `clone` panics, or a
listener does. The mutexes in it ignore poisoning. -/

namespace Nosy
open EStateM (Result)
open Pruning (settled)

variable {S V L W : Type}

/-- `Clone` of the values may panic or act on the world. A copy equals its original. -/
structure Cloning (V W : Type) where
  clone : V → EStateM Failure W V
  equal : ∀ {value copy world after}, clone value world = .ok copy after → copy = value

/-- `Cell`, with what it shares with its sources. -/
structure Cell (S L : Type) where
  valueMutex : S
  notifier : Notifier L

namespace Cell
variable [LoadStore S V]

def new (value : V) : Cell S L := ⟨LoadStore.new value, .new⟩

/-- `Cell::get`, and `Source::get` of its source: both clone the shared value. -/
def get (cell : Cell S L) : V := LoadStore.get cell.valueMutex

def set (receive : Receive Unit L W) (value : V) (cell : Cell S L) (world : W) : Cell S L × Result Failure W Unit :=
  let (_, valueMutex) := LoadStore.replace value cell.valueMutex
  let (notifier, outcome) := cell.notifier.notify receive () world
  (⟨valueMutex, notifier⟩, outcome)

end Cell

structure CellWithLocal (S V L : Type) where
  cell : Cell S L
  value : V

namespace CellWithLocal
variable [LoadStore S V] (cloning : Cloning V W)

def new (value : V) : EStateM Failure W (CellWithLocal S V L) := fun world =>
  match cloning.clone value world with
  | .error failure after => .error failure after
  | .ok copy after => .ok ⟨.new value, copy⟩ after

def asSource (this : CellWithLocal S V L) : Cell S L := this.cell

def get (this : CellWithLocal S V L) : V := this.value

def set (receive : Receive Unit L W) (value : V) (this : CellWithLocal S V L) (world : W) :
    CellWithLocal S V L × Result Failure W Unit :=
  let assigned := { this with value }
  match cloning.clone assigned.value world with
  | .error failure after => (assigned, .error failure after)
  | .ok copy after =>
    let (cell, outcome) := assigned.cell.set receive copy after
    ({ assigned with cell }, outcome)

def listen [VecGrowth] (receive : Receive Unit L W) (listener : L) (this : CellWithLocal S V L) (world : W) :
    CellWithLocal S V L × Result Failure W Unit :=
  let (notifier, outcome) := this.cell.notifier.listen receive listener world
  ({ this with cell := { this.cell with notifier } }, outcome)

/-- A cell in use: its owner goes on after a call that was left by a panic. -/
structure System (S V L W : Type) where
  this : CellWithLocal S V L
  world : W

inductive Op (V L W : Type) where
  | set (value : V)
  | listen (listener : L)
  /-- Listeners and whatever `clone` depends on may change in between. -/
  | evolve (next : W)

def step [VecGrowth] (receive : Receive Unit L W) (op : Op V L W) (system : System S V L W) : Option (System S V L W) :=
  match op with
  | .set value => let (this, outcome) := system.this.set cloning receive value system.world; some ⟨this, settled outcome⟩
  | .listen listener => let (this, outcome) := system.this.listen receive listener system.world; some ⟨this, settled outcome⟩
  | .evolve next => some { system with world := next }

end CellWithLocal
end Nosy
