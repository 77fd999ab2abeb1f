import Nosy.Broadcast

/-! Buffers in front of a notifier. `Buffer` and `RawBuffer` have the same code and
differ in the notifier they borrow. -/

namespace Nosy
open EStateM (Result)

/-- An `ArrayVec` and a borrowed notifier of type `N`. -/
structure BufferOf (N M : Type) where
  buffer : List M
  notifier : N

namespace BufferOf
variable {N M W : Type} (notifyMany : List M → N → W → N × Result Failure W Unit)

def new (notifier : N) : BufferOf N M := ⟨[], notifier⟩

/-- The buffer is cleared only if the call returns. -/
def flush (this : BufferOf N M) (world : W) : BufferOf N M × Result Failure W Unit :=
  match notifyMany this.buffer this.notifier world with
  | (notifier, .ok () after) => (⟨[], notifier⟩, .ok () after)
  | (notifier, .error failure after) => ({ this with notifier }, .error failure after)

/-- `ArrayVec::push` panics when there is no room. -/
def push (capacity : Nat) (message : M) (this : BufferOf N M) (world : W) : BufferOf N M × Result Failure W Unit :=
  if this.buffer.length < capacity then
    let stored := { this with buffer := this.buffer ++ [message] }
    if stored.buffer.length = capacity then stored.flush notifyMany world else (stored, .ok () world)
  else (this, .error (.panicked "called `Result::unwrap()` on an `Err` value: CapacityError: insufficient capacity") world)

/-- `Drop`. -/
def drop (this : BufferOf N M) (world : W) : BufferOf N M × Result Failure W Unit :=
  if this.buffer.isEmpty then (this, .ok () world) else this.flush notifyMany world

end BufferOf

section Notifiers
variable {M L W : Type} (receive : Receive M L W)

abbrev Buffer (M L : Type) : Type := BufferOf (Notifier L) M

def Buffer.flush : Buffer M L → W → Buffer M L × Result Failure W Unit :=
  BufferOf.flush fun messages notifier => notifier.notifyMany receive messages

def Buffer.push (capacity : Nat) (message : M) : Buffer M L → W → Buffer M L × Result Failure W Unit :=
  BufferOf.push (fun messages notifier => notifier.notifyMany receive messages) capacity message

def Buffer.drop : Buffer M L → W → Buffer M L × Result Failure W Unit :=
  BufferOf.drop fun messages notifier => notifier.notifyMany receive messages

abbrev RawBuffer (M L : Type) : Type := BufferOf (RawNotifier L) M

def RawBuffer.flush : RawBuffer M L → W → RawBuffer M L × Result Failure W Unit :=
  BufferOf.flush fun messages notifier => notifier.notifyMany receive messages

def RawBuffer.push (capacity : Nat) (message : M) : RawBuffer M L → W → RawBuffer M L × Result Failure W Unit :=
  BufferOf.push (fun messages notifier => notifier.notifyMany receive messages) capacity message

def RawBuffer.drop : RawBuffer M L → W → RawBuffer M L × Result Failure W Unit :=
  BufferOf.drop fun messages notifier => notifier.notifyMany receive messages

/-- A notifier of either kind, with a record of all batches sent through it, which no
operation reads: true marks those that come from a buffer. -/
structure Channel (L M : Type) where
  handle : Handle L
  sends : List (Bool × List M)

def Channel.notifyMany (messages : List M) (channel : Channel L M) (world : W) : Channel L M × Result Failure W Unit :=
  let (handle, outcome) := channel.handle.notifyMany receive messages world
  (⟨handle, channel.sends ++ [(true, messages)]⟩, outcome)

end Notifiers

namespace Buffered
open Broadcast

variable {ι M : Type} [DecidableEq ι]

/-- A notifier in use, on which buffers are created and dropped. -/
structure Sending (machine : ι → Machine M) where
  system : System machine
  sends : List (Bool × List M)
  /-- Each registration, and how many batches had been sent before it. -/
  registrations : List (Registration ι × Nat)
  /-- There is a buffer that was not dropped. -/
  live : Bool
  buffer : List M
  /-- What was pushed into the last buffer, and how many batches were sent before it. -/
  pushed : List M
  since : Nat

variable {machine : ι → Machine M}

/-- The batches sent by the last buffer. -/
def Sending.flushed (sending : Sending machine) : List (List M) :=
  ((sending.sends.drop sending.since).filter (·.1)).map (·.2)

def Sending.this (sending : Sending machine) : BufferOf (Channel (Registration ι) M) M :=
  ⟨sending.buffer, sending.system.handle, sending.sends⟩

def Sending.returned (sending : Sending machine) (live : Bool) (pushed : List M) :
    BufferOf (Channel (Registration ι) M) M × Result Failure (Broadcast.World machine) Unit → Option (Sending machine)
  | (this, .ok () world) =>
    some { sending with
      system := { sending.system with
        handle := this.notifier.handle
        states := world.states
        delivered := sending.system.delivered ++ world.calls }
      sends := this.notifier.sends
      live
      buffer := this.buffer
      pushed }
  | (_, .error _ _) => none

inductive Op (machine : ι → Machine M) where
  /-- `Notifier::buffer`. -/
  | create
  | push (message : M)
  | drop
  | other (op : Broadcast.Op machine)

/-- A `RawBuffer` borrows its notifier mutably, so there is no other use of it. -/
def Sending.excludes (sending : Sending machine) : Broadcast.Op machine → Bool
  | .evolve _ _ => false
  | _ => match sending.system.handle with
    | .raw _ => sending.live
    | .shared _ => false

def Sending.registers (sending : Sending machine) : Broadcast.Op machine → List (Registration ι × Nat)
  | .listen listener | .listenRaw listener => [(⟨sending.system.registered, listener⟩, sending.sends.length)]
  | _ => []

def step [VecGrowth] (capacity : Nat) (op : Op machine) (sending : Sending machine) : Option (Sending machine) :=
  match op with
  | .create =>
    if sending.live then none
    else some { sending with live := true, buffer := [], pushed := [], since := sending.sends.length }
  | .push message =>
    if sending.live then
      sending.returned true (sending.pushed ++ [message])
        (sending.this.push (Channel.notifyMany (call machine)) capacity message sending.system.world)
    else none
  | .drop =>
    if sending.live then
      sending.returned false sending.pushed
        (sending.this.drop (Channel.notifyMany (call machine)) sending.system.world)
    else none
  | .other op =>
    if sending.excludes op then none
    else (Broadcast.step op sending.system).map fun system =>
      { sending with
        system
        sends := sending.sends ++ op.batches.map fun batch => (false, batch)
        registrations := sending.registrations ++ sending.registers op }

def initial (handle : Handle (Registration ι)) (states : (i : ι) → (machine i).State) : Sending machine :=
  ⟨Broadcast.initial handle states, [], [], false, [], [], 0⟩

end Buffered
end Nosy
