import Mathlib.Data.Finset.Dedup
import Nosy.General.Counted
import Nosy.General.SharedLock
import Nosy.General.Transition
import Nosy.Listener

/-! A `StoreLock` between threads: the owner of the state, and listeners that reach it
only as long as the owner, or another listener's call, keeps it. A `Log` is one. Every step is one
access to the counts, to the mutex or to the state. -/

namespace Nosy

/-- `BTreeSet::extend` and `HashSet::extend` -/
def Store.set (M : Type) [DecidableEq M] : Store M (Finset M) where
  receive messages contents := contents ∪ messages.toFinset
  empty := by simp
  append := by simp [Finset.union_assoc]

namespace StoreLock

/-- Through what a message comes. -/
inductive Handle where
  | owner
  | listener
deriving DecidableEq, Repr

/-- A `StoreLockListener`, or the `Weak<Mutex<T>>` of a store that is shared as a `StoreRef`. -/
inductive Link where
  | listener
  | weak
deriving DecidableEq, Repr

/-- What a call wants the mutex for. -/
inductive Request (M : Type) where
  | receive (handle : Handle) (messages : List M)
  /-- `take` and `Log::drain`; the default was made before. -/
  | take
  /-- `lock`, for a guard that the caller keeps. -/
  | lock
deriving DecidableEq, Repr

/-- What came of a call. -/
inductive Outcome (T M : Type) where
  | received (messages : List M)
  /-- `Store::receive` panicked after some of the messages, and did this to the state. -/
  | torn (stored unstored : List M) (harm : T → T)
  | took (state : T)
  | held (found left : T)
  /-- `receive` returned false. -/
  | refused (messages : List M)

/-- Where a thread is. -/
inductive Phase (T M : Type) where
  | idle
  /-- In a listener's `receive`, before `upgrade`. -/
  | upgrading (link : Link) (messages : List M)
  | locking (request : Request M)
  /-- With the mutex, in `Store::receive`. -/
  | storing (handle : Handle) (stored rest : List M)
  | unwinding (handle : Handle) (stored unstored : List M) (harm : T → T)
  | taking
  | replaced (old : T)
  | holding (found : T)
  /-- Without it; a listener's call drops its reference next. -/
  | leaving (handle : Handle) (outcome : Outcome T M)

structure State (τ T M : Type) where
  shared : Counted T
  mutex : SharedLock τ
  /-- The `StoreLock` itself was not dropped. -/
  owned : Bool
  /-- The threads in a call that borrows it. -/
  borrowers : Finset τ
  phase : τ → Phase T M
  /-- The calls in the order in which they began, did their work under the mutex and
  returned. No step reads these histories. -/
  calls : List (τ × Option (List M))
  order : List (τ × Outcome T M)
  answers : List (τ × Outcome T M)

inductive Action (τ T M : Type) where
  /-- `receive` of a listener. -/
  | call (thread : τ) (link : Link) (messages : List M)
  | upgrade (thread : τ)
  /-- `StoreLock::receive`, `take` or `lock`. -/
  | borrow (thread : τ) (request : Request M)
  | acquire (thread : τ)
  | store (thread : τ)
  | panic (thread : τ) (harm : T → T)
  | replace (thread : τ)
  /-- Through the guard. -/
  | change (thread : τ) (change : T → T)
  | unlock (thread : τ)
  | leave (thread : τ)
  /-- The owner drops the `StoreLock`. -/
  | drop

/-- The messages that a call brings, if it brings any. -/
def Request.messages {M : Type} : Request M → Option (List M)
  | .receive _ messages => some messages
  | .take | .lock => none

/-- What a call begins with once it has the mutex. -/
def Request.start {T M : Type} : Request M → T → Phase T M
  | .receive handle messages, _ => .storing handle [] messages
  | .take, _ => .taking
  | .lock, state => .holding state

/-- The calls that can drop their guard here, by returning or by unwinding. -/
def Phase.outcome {T M : Type} : Phase T M → T → Option (Handle × Outcome T M)
  | .storing handle stored [], _ => some (handle, .received stored)
  | .unwinding handle stored unstored harm, _ => some (handle, .torn stored unstored harm)
  | .replaced old, _ => some (.owner, .took old)
  | .holding found, state => some (.owner, .held found state)
  | _, _ => none

variable {τ T M : Type} [DecidableEq τ] [Inhabited T]

def State.move (thread : τ) (phase : Phase T M) (state : State τ T M) : State τ T M :=
  { state with phase := Function.update state.phase thread phase }

def State.begin (thread : τ) (messages : Option (List M)) (phase : Phase T M) (state : State τ T M) : State τ T M :=
  { state.move thread phase with calls := state.calls ++ [(thread, messages)] }

def State.answer (thread : τ) (outcome : Outcome T M) (state : State τ T M) : State τ T M :=
  { state with phase := Function.update state.phase thread .idle, answers := state.answers ++ [(thread, outcome)] }

/-- A listener's call has a reference of its own, any other borrows the owner's. -/
def State.leave (thread : τ) (handle : Handle) (outcome : Outcome T M) (state : State τ T M) : State τ T M :=
  match handle with
  | .listener => { state with shared := state.shared.release }.answer thread outcome
  | .owner => { state with borrowers := state.borrowers.erase thread }.answer thread outcome

def Request.borrows : Request M → Bool
  | .receive .listener _ => false
  | _ => true

def step (store : Store M T) : Action τ T M → State τ T M → Option (State τ T M)
  | .call thread link messages, state =>
    match state.phase thread with
    | .idle => some (state.begin thread (some messages) (.upgrading link messages))
    | _ => none
  | .upgrade thread, state =>
    match state.phase thread with
    | .upgrading link messages =>
      match link, messages, state.shared.upgrade with
      | _, _, none => some (state.answer thread (.refused messages))
      | .weak, [], some _ => some (state.answer thread (.received [])) -- only reads `strong_count`
      | .listener, [], some shared => -- the mutex is not acquired
        some ({ state with shared }.move thread (.leaving .listener (.received [])))
      | _, message :: rest, some shared =>
        some ({ state with shared }.move thread (.locking (.receive .listener (message :: rest))))
    | _ => none
  | .borrow thread request, state =>
    match state.phase thread with
    | .idle =>
      if state.owned ∧ request.borrows then
        some ({ state with borrowers := insert thread state.borrowers }.begin thread request.messages (.locking request))
      else none
    | _ => none
  | .acquire thread, state =>
    match state.phase thread, state.shared.value, state.mutex.write thread with
    | .locking request, some value, some mutex => some ({ state with mutex }.move thread (request.start value))
    | _, _, _ => none
  | .store thread, state =>
    match state.phase thread, state.shared.value with
    | .storing handle stored (message :: rest), some value =>
      some ({ state with shared := state.shared.put (store.receive [message] value) }.move thread
        (.storing handle (stored ++ [message]) rest))
    | _, _ => none
  | .panic thread harm, state =>
    match state.phase thread, state.shared.value with
    | .storing handle stored (message :: rest), some value =>
      some ({ state with shared := state.shared.put (harm value) }.move thread
        (.unwinding handle stored (message :: rest) harm))
    | _, _ => none
  | .replace thread, state =>
    match state.phase thread, state.shared.value with
    | .taking, some value => some ({ state with shared := state.shared.put default }.move thread (.replaced value))
    | _, _ => none
  | .change thread change, state =>
    match state.phase thread, state.shared.value with
    | .holding found, some value =>
      some ({ state with shared := state.shared.put (change value) }.move thread (.holding found))
    | _, _ => none
  | .unlock thread, state =>
    match state.shared.value.bind (state.phase thread).outcome with
    | some (handle, outcome) =>
      some ({ state with
        mutex := state.mutex.release thread
        order := state.order ++ [(thread, outcome)] }.move thread (.leaving handle outcome))
    | none => none
  | .leave thread, state =>
    match state.phase thread with
    | .leaving handle outcome => some (state.leave thread handle outcome)
    | _ => none
  | .drop, state =>
    if state.owned ∧ state.borrowers = ∅ then some { state with owned := false, shared := state.shared.release }
    else none

/-- `StoreLock::new` -/
def initial (state : T) : State τ T M where
  shared := .new state
  mutex := .free
  owned := true
  borrowers := ∅
  phase _ := .idle
  calls := []
  order := []
  answers := []

end StoreLock
end Nosy
