import Nosy.Broadcast
import Nosy.Delivery
import Nosy.General.Chunks

/-! The calls that a filter makes on its target, which is any state machine. -/

namespace Nosy
open Chunks
open EStateM (Result)

variable {I O : Type}

/-- A target with a record of the calls made on it and of its answers. -/
structure Recorded (machine : Machine O) where
  state : machine.State
  calls : List (List O × Bool)

def Machine.record (machine : Machine O) (messages : List O) : EStateM Failure (Recorded machine) Bool := fun world =>
  let (alive, next) := machine.receive world.state messages
  .ok alive ⟨next, world.calls ++ [(messages, alive)]⟩

/-- Batches handed to a machine one by one, up to the first that it answers with false. -/
def Machine.feed (machine : Machine O) : machine.State → List (List O) → machine.State × List (List O × Bool)
  | state, [] => (state, [])
  | state, batch :: rest =>
    let (alive, next) := machine.receive state batch
    if alive then
      let (last, calls) := feed machine next rest
      (last, (batch, true) :: calls)
    else (next, [(batch, false)])

/-- The contract of a listener with what it says of batches: messages are processed
as if each came alone, and a dead listener does not change any more. -/
structure BatchMachine (M : Type) extends LawfulMachine M where
  split : ∀ state first later, receive state (first ++ later) = receive (receive state first).2 later
  dead_inert : ∀ state first later, (receive state first).1 = false →
    (receive (receive state first).2 later).2 = (receive state first).2

/-- A store that is gone when its owner drops it. -/
def Store.machine {C : Type} (store : Store O C) : BatchMachine O where
  State := Option C
  receive contents messages := (contents.isSome, contents.map (store.receive messages))
  dead_stays := by
    intro contents first later dead
    cases contents <;> simp_all
  query_inert := by
    intro contents
    cases contents <;> simp [store.empty]
  split := by
    intro contents first later
    cases contents <;> simp [store.append]
  dead_inert := by
    intro contents first later dead
    cases contents <;> simp_all

/-- The batches a filter means to send. -/
def Filter.planned (zeroSized : Bool) (batch : Nat) (out : List O) : List (List O) :=
  if zeroSized ∨ out = [] then [out] else chunks batch out

section Feeding
variable (machine : Machine O) {state : machine.State} {batch : List O} {batches : List (List O)}

@[simp] theorem feed_nil : machine.feed state [] = (state, []) := rfl

private theorem feed_cons : machine.feed state (batch :: batches) =
    if (machine.receive state batch).1 = true then
      ((machine.feed (machine.receive state batch).2 batches).1,
        (batch, true) :: (machine.feed (machine.receive state batch).2 batches).2)
    else ((machine.receive state batch).2, [(batch, false)]) := rfl

private theorem feed_prefix (state : machine.State) (batches : List (List O)) :
    (machine.feed state batches).2.map (·.1) <+: batches := by
  induction batches generalizing state with
  | nil => exact List.prefix_rfl
  | cons batch rest ih =>
    rw [feed_cons]
    split
    · exact List.cons_prefix_cons.mpr ⟨rfl, ih _⟩
    · exact List.cons_prefix_cons.mpr ⟨rfl, List.nil_prefix⟩

private theorem feed_alive {state : machine.State} {batches : List (List O)}
    (alive : (machine.feed state batches).2.all (·.2) = true) : (machine.feed state batches).2.map (·.1) = batches := by
  induction batches generalizing state with
  | nil => rfl
  | cons batch rest ih =>
    by_cases answered : (machine.receive state batch).1 = true
    · simp only [feed_cons, if_pos answered, List.all_cons, Bool.true_and] at alive
      simp only [feed_cons, if_pos answered, List.map_cons, ih alive]
    · simp only [feed_cons, if_neg answered, List.all_cons, Bool.false_and, Bool.false_eq_true] at alive

private theorem feed_last (state : machine.State) (batch : List O) (rest : List (List O)) :
    (machine.feed state (batch :: rest)).2.getLast?.map (·.2) =
      some ((machine.feed state (batch :: rest)).2.all (·.2)) := by
  induction rest generalizing state batch with
  | nil =>
    rw [feed_cons]
    split <;> rfl
  | cons next rest ih =>
    rw [feed_cons]
    split
    · have later := ih (machine.receive state batch).2 next
      obtain ⟨call, last, answer⟩ := Option.map_eq_some_iff.mp later
      simp only [List.getLast?_cons, last, Option.getD_some, Option.map_some, answer, List.all_cons, Bool.true_and]
    · rfl

end Feeding

/-- What the target has seen after the batches were handed to it. -/
def Machine.offer (machine : Machine O) (batches : List (List O)) (world : Recorded machine) :
    Result Failure (Recorded machine) Bool :=
  let (last, calls) := machine.feed world.state batches
  .ok (calls.all (·.2)) ⟨last, world.calls ++ calls⟩

private theorem offer_nil (machine : Machine O) (world : Recorded machine) : machine.offer [] world = .ok true world := by
  simp only [Machine.offer, feed_nil, List.all_nil, List.append_nil]

private theorem offer_cons (machine : Machine O) (batch : List O) (batches : List (List O)) (world : Recorded machine) :
    machine.offer (batch :: batches) world =
      match machine.record batch world with
      | .ok true after => machine.offer batches after
      | outcome => outcome := by
  simp only [Machine.offer, Machine.record, feed_cons]
  cases (machine.receive world.state batch).1 with
  | false => simp
  | true => simp

private theorem buffered_offers (function : I → Option O) (batch : Nat) (machine : Machine O) (messages : List I)
    (buffer : List O) (world : Recorded machine) :
    Filter.buffered function batch machine.record messages buffer world =
      machine.offer (Filter.batches batch (messages.filterMap function) buffer) world := by
  induction messages generalizing buffer world with
  | nil =>
    simp only [List.filterMap_nil, Filter.batches, offer_cons, offer_nil, Filter.buffered]
    split <;> simp_all only
  | cons message rest ih =>
    cases filtered : function message with
    | none => simp only [Filter.buffered, filtered, List.filterMap_cons_none filtered, ih]
    | some output =>
      simp only [Filter.buffered, filtered, List.filterMap_cons_some filtered, Filter.batches]
      split
      · simp only [offer_cons, ih]
        rcases machine.record buffer world with ⟨_ | _, after⟩ | ⟨failure, after⟩ <;> rfl
      · exact ih _ _

private theorem batches_short {batch : Nat} {messages buffer : List O}
    (fits : buffer.length + messages.length ≤ batch) :
    Filter.batches batch messages buffer = [buffer ++ messages] := by
  induction messages generalizing buffer with
  | nil => rw [Filter.batches, List.append_nil]
  | cons message rest ih =>
    rw [List.length_cons] at fits
    rw [Filter.batches, if_neg (by omega), ih (by simpa using by omega), List.append_assoc, List.singleton_append]

private theorem batches_full {batch : Nat} (positive : 0 < batch) {messages buffer : List O}
    (room : buffer.length ≤ batch)
    (more : batch < buffer.length + messages.length) :
    Filter.batches batch messages buffer =
      (buffer ++ messages).take batch :: Filter.batches batch ((buffer ++ messages).drop batch) [] := by
  induction messages generalizing buffer with
  | nil =>
    rw [List.length_nil] at more
    omega
  | cons message rest ih =>
    rw [List.length_cons] at more
    rw [Filter.batches]
    split
    next full =>
      rw [← full, List.take_left, List.drop_left, Filter.batches, if_neg (by rw [full, List.length_nil]; omega)]
      rfl
    next =>
      rw [ih (by simp only [List.length_append, List.length_singleton]; omega)
        (by simp only [List.length_append, List.length_singleton]; omega), List.append_assoc, List.singleton_append]

private theorem batches_chunks {batch : Nat} (positive : 0 < batch) (out : List O) :
    out ≠ [] → Filter.batches batch out [] = chunks batch out := by
  apply chunks_induction (motive := fun items pieces => items ≠ [] → Filter.batches batch items [] = pieces) positive
  · intro empty
    exact absurd rfl empty
  · intro items _ rest _
    by_cases last : items.drop batch = []
    · have fits : items.length ≤ batch := List.drop_eq_nil_iff.mp last
      rw [batches_short (by simpa using fits), last, chunks_nil positive, List.take_of_length_le fits, List.nil_append]
    · have more : batch < items.length := Nat.lt_of_not_le fun fits => last (List.drop_eq_nil_iff.mpr fits)
      rw [batches_full positive (Nat.zero_le _) (by simpa using more), List.nil_append, rest last]

private theorem batches_planned {batch : Nat} (positive : 0 < batch) (out : List O) :
    Filter.batches batch out [] = Filter.planned false batch out := by
  by_cases empty : out = []
  · subst empty
    rfl
  · rw [batches_chunks positive out empty, Filter.planned, if_neg (by simpa using empty)]

theorem receive_offers (function : I → Option O) (zeroSized : Bool) {batch : Nat} (positive : 0 < batch)
    (machine : Machine O) (messages : List I) (world : Recorded machine) :
    Filter.receive function zeroSized batch machine.record messages world =
      machine.offer (Filter.planned zeroSized batch (messages.filterMap function)) world := by
  cases zeroSized with
  | false =>
    rw [← batches_planned positive]
    exact buffered_offers function batch machine messages [] world
  | true =>
    simp only [Filter.receive, Filter.planned, true_or, if_true, offer_cons, offer_nil]
    split <;> simp_all only

private theorem planned_flatten (zeroSized : Bool) {batch : Nat} (positive : 0 < batch) (out : List O) :
    (Filter.planned zeroSized batch out).flatten = out := by
  unfold Filter.planned
  split
  · exact List.append_nil _
  · exact chunks_flatten positive out

private theorem planned_nonempty (zeroSized : Bool) {batch : Nat} (positive : 0 < batch) (out : List O) :
    ∃ first rest, Filter.planned zeroSized batch out = first :: rest := by
  unfold Filter.planned
  split
  · exact ⟨_, _, rfl⟩
  next nonempty => exact ⟨_, _, chunks_cons positive fun empty => nonempty (.inr empty)⟩

private theorem planned_bounded {batch : Nat} (positive : 0 < batch) (out : List O) :
    ∀ piece ∈ Filter.planned false batch out, piece.length ≤ batch := by
  intro piece member
  unfold Filter.planned at member
  split at member
  next empty =>
    have none : out = [] := empty.resolve_left Bool.false_ne_true
    rw [List.mem_singleton.mp member, none]
    exact Nat.zero_le _
  next => exact (chunks_bounded positive out piece member).2

private theorem planned_empty (zeroSized : Bool) {batch : Nat} (positive : 0 < batch) {out : List O}
    (member : [] ∈ Filter.planned zeroSized batch out) : out = [] ∧ Filter.planned zeroSized batch out = [[]] := by
  unfold Filter.planned at member ⊢
  split at member
  next single =>
    obtain rfl := List.mem_singleton.mp member
    exact ⟨rfl, if_pos single⟩
  next => exact absurd rfl (chunks_bounded positive out [] member).1

/-- A target that keeps the contract does not notice how messages are batched. -/
private theorem feed_flatten (target : BatchMachine O) (state : target.State) (batch : List O)
    (batches : List (List O)) :
    target.receive state (batch :: batches).flatten =
      ((target.feed state (batch :: batches)).2.all (·.2), (target.feed state (batch :: batches)).1) := by
  induction batches generalizing state batch with
  | nil =>
    rw [List.flatten_cons, List.flatten_nil, List.append_nil, feed_cons]
    rcases target.receive state batch with ⟨_ | _, next⟩ <;> rfl
  | cons following rest ih =>
    rw [feed_cons, List.flatten_cons, target.split]
    by_cases answered : (target.receive state batch).1 = true
    · rw [if_pos answered, ih, List.all_cons, Bool.true_and]
    · rw [if_neg answered]
      rw [Bool.not_eq_true] at answered
      apply Prod.ext
      · exact target.dead_stays state batch _ answered
      · exact target.dead_inert state batch _ answered

/-- What the calls made in one batch mean for the target: `out` is the output of the
function, `alive` what the filter returns. -/
structure Serves (out : List O) (limit : Option Nat) (calls : List (List O × Bool)) (alive : Bool) : Prop where
  last : calls.getLast?.map (·.2) = some alive
  ordered : (calls.map (·.1)).flatten <+: out
  complete : alive = true → (calls.map (·.1)).flatten = out
  bounded : ∀ batch ∈ limit, ∀ call ∈ calls, call.1.length ≤ batch
  silent : ∀ call ∈ calls, call.1 = [] → out = [] ∧ calls = [call]

private theorem feed_serves (zeroSized : Bool) {batch : Nat} (positive : 0 < batch) (machine : Machine O)
    (state : machine.State)
    (out : List O) :
    Serves out (if zeroSized then none else some batch) (machine.feed state (Filter.planned zeroSized batch out)).2
      ((machine.feed state (Filter.planned zeroSized batch out)).2.all (·.2)) := by
  have handed := feed_prefix machine state (Filter.planned zeroSized batch out)
  have inside {call : List O × Bool} (member : call ∈ (machine.feed state (Filter.planned zeroSized batch out)).2) :
      call.1 ∈ Filter.planned zeroSized batch out := handed.subset (List.mem_map_of_mem member)
  refine ⟨?_, ?_, ?_, ?_, ?_⟩
  · obtain ⟨first, rest, plan⟩ := planned_nonempty zeroSized positive out
    rw [plan]
    exact feed_last machine state first rest
  · obtain ⟨skipped, all⟩ := handed
    have whole := planned_flatten zeroSized positive out
    rw [← all, List.flatten_append] at whole
    exact ⟨_, whole⟩
  · intro alive
    rw [feed_alive machine alive, planned_flatten zeroSized positive]
  · intro size sized call member
    cases zeroSized with
    | true => cases sized
    | false =>
      cases sized
      exact planned_bounded positive out _ (inside member)
  · intro call member silent
    have planned := inside member
    rw [silent] at planned
    obtain ⟨empty, plan⟩ := planned_empty zeroSized positive planned
    refine ⟨empty, ?_⟩
    have short := Nat.le_trans handed.length_le (Nat.le_of_eq (congrArg List.length plan))
    rw [List.length_map] at short
    cases fed : (machine.feed state (Filter.planned zeroSized batch out)).2 with
    | nil =>
      rw [fed] at member
      cases member
    | cons first rest =>
      rw [fed] at member short
      obtain rfl : rest = [] := List.length_eq_zero_iff.mp (Nat.le_zero.mp (Nat.le_of_succ_le_succ short))
      rw [List.mem_singleton.mp member]

/-- The calls made on any target are the planned batches up to the first answer of
false, and the last answer is returned. So a target that stays alive is given all of the
output, and one that keeps the contract ends as if given all of it at once. -/
theorem filter_calls (function : I → Option O) {batch : Nat} (positive : 0 < batch) (messages : List I) :
    (∀ zeroSized (machine : Machine O) (world : Recorded machine), ∃ alive last calls,
      Filter.receive function zeroSized batch machine.record messages world = .ok alive ⟨last, world.calls ++ calls⟩ ∧
      machine.feed world.state (Filter.planned zeroSized batch (messages.filterMap function)) = (last, calls) ∧
      Serves (messages.filterMap function) (if zeroSized then none else some batch) calls alive) ∧
    ∀ (target : BatchMachine O) (world : Recorded target.toMachine), ∃ alive last buffered unbuffered,
      Filter.receive function false batch target.record messages world = .ok alive ⟨last, buffered⟩ ∧
      Filter.receive function true batch target.record messages world = .ok alive ⟨last, unbuffered⟩ := by
  refine ⟨?_, ?_⟩
  · intro zeroSized machine world
    rw [receive_offers function zeroSized positive]
    exact ⟨_, _, _, rfl, rfl, feed_serves zeroSized positive machine world.state _⟩
  · intro target world
    have same (zeroSized : Bool) : ∃ calls,
        Filter.receive function zeroSized batch target.record messages world =
          .ok (target.receive world.state (messages.filterMap function)).1
            ⟨(target.receive world.state (messages.filterMap function)).2, calls⟩ := by
      obtain ⟨first, rest, plan⟩ := planned_nonempty zeroSized positive (messages.filterMap function)
      have fed := feed_flatten target world.state first rest
      rw [← plan, planned_flatten zeroSized positive] at fed
      rw [receive_offers function zeroSized positive, fed]
      exact ⟨_, rfl⟩
    obtain ⟨buffered, first⟩ := same false
    obtain ⟨unbuffered, second⟩ := same true
    exact ⟨_, _, buffered, unbuffered, first, second⟩

/-- A log that takes three batches and is then gone. -/
def threeBatches : Machine Nat where
  State := Nat
  receive taken _ := (taken < 3, taken + 1)

def even (n : Nat) : Option Nat := if n % 2 = 0 then some n else none

/-- Even numbers in pairs, for a target that takes two batches more and misses the last
pair, and for a log, which does not notice the pairs. -/
theorem filter_calls_pairs :
    (∃ world : Recorded threeBatches,
      Filter.receive even false 2 threeBatches.record [0, 1, 2, 3, 4, 5, 6, 8, 10, 12] ⟨(1 : Nat), []⟩ = .ok false world ∧
      world.calls = [([0, 2], true), ([4, 6], true), ([8, 10], false)] ∧
      Serves [0, 2, 4, 6, 8, 10, 12] (some 2) world.calls false) ∧
    ∃ last buffered unbuffered,
      Filter.receive even false 2 (Store.log Nat).machine.record [0, 1, 2, 4] ⟨some [], []⟩ = .ok true ⟨last, buffered⟩ ∧
      Filter.receive even true 2 (Store.log Nat).machine.record [0, 1, 2, 4] ⟨some [], []⟩ = .ok true ⟨last, unbuffered⟩ ∧
      buffered = [([0, 2], true), ([4], true)] ∧ unbuffered = [([0, 2, 4], true)] := by
  constructor
  · obtain ⟨alive, last, calls, received, fed, serves⟩ :=
      (filter_calls even (show 0 < 2 by decide) [0, 1, 2, 3, 4, 5, 6, 8, 10, 12]).1 false threeBatches ⟨(1 : Nat), []⟩
    have made : calls = [([0, 2], true), ([4, 6], true), ([8, 10], false)] := congrArg Prod.snd fed.symm
    have answer := serves.last
    subst made
    cases answer
    exact ⟨_, received, rfl, serves⟩
  · obtain ⟨alive, last, buffered, unbuffered, first, second⟩ :=
      (filter_calls even (show 0 < 2 by decide) [0, 1, 2, 4]).2 (Store.log Nat).machine ⟨some [], []⟩
    cases first
    cases second
    exact ⟨_, _, _, rfl, rfl, rfl, rfl⟩

end Nosy
