import Nosy.Buffer
import Nosy.Proofs.BroadcastRefinement

/-! A buffer sends full batches, and what is left of it when it is dropped. Nothing
is lost, repeated or reordered on the way to a listener that stays alive. -/

namespace Nosy

namespace BufferOf
open EStateM (Result)

variable {M L W N : Type} {receive : Receive M L W}

/-- A channel adds the record to a handle, and a handle the choice of a notifier; the
buffer is the same in front of each. -/
def viewed (view : N → Handle L) (done : BufferOf N M × Result Failure W Unit) :
    BufferOf (Handle L) M × Result Failure W Unit := (⟨done.1.buffer, view done.1.notifier⟩, done.2)

section View
variable (notifyMany : List M → N → W → N × Result Failure W Unit) (view : N → Handle L)
  (same : ∀ messages notifier world, (view notifier).notifyMany receive messages world =
    ((notifyMany messages notifier world).map view id))
  (buffer : List M) (notifier : N) (world : W)

include same in
theorem flush_viewed : viewed view (flush notifyMany ⟨buffer, notifier⟩ world) =
    flush (fun messages (handle : Handle L) world => handle.notifyMany receive messages world)
      ⟨buffer, view notifier⟩ world := by
  simp only [flush, same]
  rcases notifyMany buffer notifier world with ⟨after, _ | _⟩ <;> rfl

include same in
theorem push_viewed (capacity : Nat) (message : M) :
    viewed view (push notifyMany capacity message ⟨buffer, notifier⟩ world) =
      push (fun messages (handle : Handle L) world => handle.notifyMany receive messages world)
        capacity message ⟨buffer, view notifier⟩ world := by
  unfold push
  dsimp only
  split
  · split
    · exact flush_viewed notifyMany view same (buffer ++ [message]) notifier world
    · rfl
  · rfl

include same in
theorem drop_viewed : viewed view (drop notifyMany ⟨buffer, notifier⟩ world) =
    drop (fun messages (handle : Handle L) world => handle.notifyMany receive messages world)
      ⟨buffer, view notifier⟩ world := by
  unfold drop
  split
  · rfl
  · exact flush_viewed notifyMany view same buffer notifier world

end View

theorem push_channel (capacity : Nat) (message : M) (buffer : List M) (handle : Handle L)
    (sends : List (Bool × List M)) (world : W) :
    viewed Channel.handle (push (Channel.notifyMany receive) capacity message ⟨buffer, handle, sends⟩ world) =
      match handle with
      | .raw notifier => viewed .raw (RawBuffer.push receive capacity message ⟨buffer, notifier⟩ world)
      | .shared notifier => viewed .shared (Buffer.push receive capacity message ⟨buffer, notifier⟩ world) := by
  rw [push_viewed _ Channel.handle (fun _ _ _ => rfl)]
  cases handle with
  | raw notifier => exact (push_viewed _ Handle.raw (fun _ _ _ => rfl) buffer notifier world capacity message).symm
  | shared notifier => exact (push_viewed _ Handle.shared (fun _ _ _ => rfl) buffer notifier world capacity message).symm

theorem drop_channel (buffer : List M) (handle : Handle L) (sends : List (Bool × List M)) (world : W) :
    viewed Channel.handle (drop (Channel.notifyMany receive) ⟨buffer, handle, sends⟩ world) =
      match handle with
      | .raw notifier => viewed .raw (RawBuffer.drop receive ⟨buffer, notifier⟩ world)
      | .shared notifier => viewed .shared (Buffer.drop receive ⟨buffer, notifier⟩ world) := by
  rw [drop_viewed _ Channel.handle (fun _ _ _ => rfl)]
  cases handle with
  | raw notifier => exact (drop_viewed _ Handle.raw (fun _ _ _ => rfl) buffer notifier world).symm
  | shared notifier => exact (drop_viewed _ Handle.shared (fun _ _ _ => rfl) buffer notifier world).symm

end BufferOf

namespace Buffered
open Broadcast Transition
open EStateM (Result)

variable {ι M : Type} [DecidableEq ι] {lawful : ι → LawfulMachine M}

/-- What every registration is owed: all batches that were sent after it. -/
def Sending.owed (sending : Sending (machines lawful)) : List (Registration ι × List (List M)) :=
  sending.registrations.map fun registration => (registration.1, (sending.sends.drop registration.2).map (·.2))

/-- The state between two operations. -/
structure Lined (capacity : Nat) (sending : Sending (machines lawful)) : Prop where
  tracks : Tracks sending.system ⟨sending.owed, sending.system.registered⟩
  noted : ∀ registration ∈ sending.registrations, registration.2 ≤ sending.sends.length
  begun : sending.since ≤ sending.sends.length
  room : sending.live = true → sending.buffer.length < capacity
  idle : sending.live = false → sending.buffer = []
  joined : sending.flushed.flatten ++ sending.buffer = sending.pushed
  sized : ∀ batch ∈ sending.flushed, batch ≠ [] ∧ batch.length ≤ capacity
  full : ∀ batch ∈ if sending.live then sending.flushed else sending.flushed.dropLast, batch.length = capacity

section Records
omit [DecidableEq ι]
variable {sending next : Sending (machines lawful)}

private theorem owed_sent (noted : ∀ registration ∈ sending.registrations, registration.2 ≤ sending.sends.length)
    (fromBuffer : Bool) (batches : List (List M))
    (sends : next.sends = sending.sends ++ batches.map fun batch => (fromBuffer, batch))
    (registrations : next.registrations = sending.registrations) :
    next.owed = sending.owed.map fun owed => (owed.1, owed.2 ++ batches) := by
  simp only [Sending.owed, List.map_map, sends, registrations]
  apply List.map_congr_left
  intro registration member
  have earlier := noted registration member
  simp [List.drop_append_of_le_length earlier, Function.comp_def]

private theorem flushed_other (begun : sending.since ≤ sending.sends.length) {batches : List (List M)}
    (sends : next.sends = sending.sends ++ batches.map fun batch => (false, batch)) (since : next.since = sending.since) :
    next.flushed = sending.flushed := by
  simp [Sending.flushed, sends, since, List.drop_append_of_le_length begun]

private theorem flushed_own (begun : sending.since ≤ sending.sends.length) {batch : List M}
    (sends : next.sends = sending.sends ++ [(true, batch)]) (since : next.since = sending.since) :
    next.flushed = sending.flushed ++ [batch] := by
  simp [Sending.flushed, sends, since, List.drop_append_of_le_length begun]

end Records

section Steps
variable [VecGrowth] {capacity : Nat} {sending after : Sending (machines lawful)}

/-- The system after a batch was sent. -/
def sentSystem (system : System (machines lawful)) (handle : Handle (Registration ι)) (world : Broadcast.World (machines lawful)) :
    System (machines lawful) :=
  { system with handle, states := world.states, delivered := system.delivered ++ world.calls }

/-- No listener stops a batch, and every registration is passed it. -/
theorem notifyMany_tracks {system : System (machines lawful)} {naive : Naive ι M} (tracks : Tracks system naive)
    (messages : List M) : ∃ handle world,
      system.handle.notifyMany (call (machines lawful)) messages system.world = (handle, .ok () world) ∧
      Tracks (sentSystem system handle world)
        ⟨naive.registrations.map fun owed => (owed.1, owed.2 ++ [messages]), naive.registered⟩ := by
  obtain ⟨next, stepped⟩ := step_enabled (.notifyMany messages) tracks (fun _ _ impossible => nomatch impossible)
  have tracked := (sent_tracks tracks stepped).1
  simp only [Broadcast.step] at stepped
  rcases sent : system.handle.notifyMany (call (machines lawful)) messages system.world with ⟨handle, ⟨_, world⟩ | _⟩
  · rw [sent] at stepped
    cases stepped
    exact ⟨handle, world, rfl, tracked⟩
  · rw [sent] at stepped
    cases stepped

/-- A batch has left the buffer, which may be the last. -/
private def Sending.sent (sending : Sending (machines lawful)) (system : System (machines lawful)) (messages added : List M)
    (still : Bool) : Sending (machines lawful) :=
  { sending with
    system, sends := sending.sends ++ [(true, messages)], live := still, buffer := [], pushed := sending.pushed ++ added }

omit [VecGrowth] in
private theorem sent_lined (positive : 0 < capacity) (lined : Lined capacity sending) (live : sending.live = true)
    {system : System (machines lawful)} {messages added : List M} {still : Bool}
    (tracks : Tracks system ⟨sending.owed.map fun owed => (owed.1, owed.2 ++ [messages]), sending.system.registered⟩)
    (joined : sending.buffer ++ added = messages) (nonempty : messages ≠ []) (fits : messages.length ≤ capacity)
    (full : still = true → messages.length = capacity) : Lined capacity (sending.sent system messages added still) := by
  have own : (sending.sent system messages added still).flushed = sending.flushed ++ [messages] :=
    flushed_own lined.begun rfl rfl
  have owed : (sending.sent system messages added still).owed =
      sending.owed.map fun owed => (owed.1, owed.2 ++ [messages]) := owed_sent lined.noted true [messages] rfl rfl
  have longer : (sending.sent system messages added still).sends.length = sending.sends.length + 1 := List.length_append
  have earlier := lined.full
  simp only [live, if_true] at earlier
  refine ⟨?_, ?_, ?_, fun _ => positive, fun _ => rfl, ?_, ?_, ?_⟩
  · rw [owed]
    exact tracks.counted ▸ tracks
  · intro registration member
    have known := lined.noted registration member
    omega
  · exact Nat.le_trans lined.begun (longer ▸ Nat.le_succ _)
  · rw [own]
    simp only [Sending.sent, ← joined, ← lined.joined, List.flatten_append, List.flatten_singleton, List.append_assoc,
      List.append_nil]
  · rw [own]
    intro batch member
    rcases List.mem_append.mp member with old | new
    · exact lined.sized batch old
    · rw [List.mem_singleton.mp new]
      exact ⟨nonempty, fits⟩
  · rw [own]
    intro batch member
    cases still with
    | false => exact earlier batch (by simpa [Sending.sent] using member)
    | true =>
      rcases List.mem_append.mp member with old | new
      · exact earlier batch old
      · rw [List.mem_singleton.mp new]
        exact full rfl

theorem flush_lined (positive : 0 < capacity) (lined : Lined capacity sending) (live : sending.live = true)
    {messages added : List M} {still : Bool} (joined : sending.buffer ++ added = messages) (nonempty : messages ≠ [])
    (fits : messages.length ≤ capacity) (full : still = true → messages.length = capacity) :
    ∃ after, sending.returned still (sending.pushed ++ added)
        (BufferOf.flush (Channel.notifyMany (call (machines lawful))) { sending.this with buffer := messages }
          sending.system.world) = some after ∧ Lined capacity after := by
  obtain ⟨handle, world, sent, tracks⟩ := notifyMany_tracks lined.tracks messages
  refine ⟨sending.sent (sentSystem sending.system handle world) messages added still, ?_,
    sent_lined positive lined live tracks joined nonempty fits full⟩
  simp only [BufferOf.flush, Channel.notifyMany, Sending.this, sent, Sending.returned, Sending.sent, sentSystem]

/-- There is room for one more message, and no push panics. -/
theorem push_lined (positive : 0 < capacity) (lined : Lined capacity sending) (live : sending.live = true) (message : M) :
    ∃ after, step capacity (.push message) sending = some after ∧ Lined capacity after := by
  have room : sending.this.buffer.length < capacity := lined.room live
  simp only [step, live, if_true, BufferOf.push, if_pos room]
  by_cases full : (sending.this.buffer ++ [message]).length = capacity
  · rw [if_pos full]
    exact flush_lined positive lined live rfl (by simp [Sending.this]) (Nat.le_of_eq full) (fun _ => full)
  · rw [if_neg full]
    have length : (sending.this.buffer ++ [message]).length = sending.this.buffer.length + 1 := List.length_append
    refine ⟨_, rfl, ⟨?_, lined.noted, lined.begun, fun _ => ?_, ?_, ?_, lined.sized, ?_⟩⟩
    · simp only [System.world, List.append_nil]
      exact lined.tracks
    · simp only [Sending.this] at *
      omega
    · intro impossible
      cases impossible
    · exact (List.append_assoc ..).symm.trans (congrArg (· ++ [message]) lined.joined)
    · have earlier := lined.full
      rwa [live] at earlier

/-- What is left is sent when the buffer is dropped. -/
theorem drop_lined (positive : 0 < capacity) (lined : Lined capacity sending) (live : sending.live = true) :
    ∃ after, step capacity .drop sending = some after ∧ Lined capacity after := by
  have room := lined.room live
  simp only [step, live, if_true, BufferOf.drop]
  by_cases empty : sending.this.buffer.isEmpty = true
  · rw [if_pos empty]
    have none : sending.buffer = [] := List.isEmpty_iff.mp empty
    refine ⟨_, rfl, ⟨?_, lined.noted, lined.begun, ?_, fun _ => none, lined.joined, lined.sized, ?_⟩⟩
    · simp only [System.world, List.append_nil]
      exact lined.tracks
    · intro impossible
      cases impossible
    · have earlier := lined.full
      simp only [live, if_true] at earlier
      intro batch member
      exact earlier batch ((List.dropLast_sublist _).subset member)
  · rw [if_neg empty]
    have nonempty : sending.buffer ≠ [] := fun none => empty (List.isEmpty_iff.mpr none)
    have stays : false = true → sending.buffer.length = capacity := by
      intro impossible
      cases impossible
    have flushed := flush_lined positive lined live (List.append_nil _) nonempty (Nat.le_of_lt room) stays
    rwa [List.append_nil] at flushed

theorem create_lined (positive : 0 < capacity) (lined : Lined capacity sending) (free : sending.live = false) :
    ∃ after, step capacity .create sending = some after ∧ Lined capacity after := by
  simp only [step, free, Bool.false_eq_true, if_false]
  have none : ({ sending with live := true, buffer := [], pushed := [], since := sending.sends.length } :
      Sending (machines lawful)).flushed = [] := by
    simp [Sending.flushed]
  refine ⟨_, rfl, ⟨lined.tracks, lined.noted, Nat.le_refl _, fun _ => positive, fun _ => rfl, ?_, ?_, ?_⟩⟩
  all_goals rw [none]
  · rfl
  · intro batch member
    cases member
  · intro batch member
    cases member

/-- The system after another operation. -/
def Sending.used (sending : Sending (machines lawful)) (op : Broadcast.Op (machines lawful))
    (system : System (machines lawful)) : Sending (machines lawful) :=
  { sending with
    system
    sends := sending.sends ++ op.batches.map fun batch => (false, batch)
    registrations := sending.registrations ++ sending.registers op }

omit [VecGrowth] in
private theorem used_owed (lined : Lined capacity sending) (op : Broadcast.Op (machines lawful))
    (system : System (machines lawful)) :
    (Naive.step ⟨sending.owed, sending.system.registered⟩ op).registrations = (sending.used op system).owed := by
  cases op with
  | listen listener | listenRaw listener =>
    simp [Naive.step, Sending.used, Sending.owed, Sending.registers, Op.batches]
  | notify message | notifyMany messages | count | evolve listener next =>
    symm
    exact owed_sent lined.noted false _ rfl (List.append_nil _)

private theorem other_lined (lined : Lined capacity sending) {op : Broadcast.Op (machines lawful)}
    {system : System (machines lawful)}
    (stepped : Broadcast.step op sending.system = some system) : Lined capacity (sending.used op system) := by
  have tracks := (step_tracks lined.tracks stepped).1
  have same : (sending.used op system).flushed = sending.flushed := flushed_other lined.begun rfl rfl
  refine ⟨?_, ?_, ?_, lined.room, lined.idle, ?_, ?_, ?_⟩
  · rw [← used_owed lined op system]
    exact tracks.counted ▸ tracks
  · intro registration member
    have longer : (sending.used op system).sends.length = sending.sends.length + op.batches.length := by
      simp [Sending.used]
    rcases List.mem_append.mp member with old | new
    · have known := lined.noted registration old
      omega
    · have now : registration.2 = sending.sends.length := by
        cases op <;> simp_all [Sending.registers]
      omega
  · have known := lined.begun
    simp only [Sending.used, List.length_append]
    omega
  · rw [same]
    exact lined.joined
  · rw [same]
    exact lined.sized
  · rw [same]
    exact lined.full

theorem step_lined (positive : 0 < capacity) (lined : Lined capacity sending) {op : Op (machines lawful)}
    (stepped : step capacity op sending = some after) : Lined capacity after := by
  have determined {other : Sending (machines lawful)} (returns : step capacity op sending = some other)
      (kept : Lined capacity other) : Lined capacity after := by
    rw [stepped] at returns
    cases returns
    exact kept
  cases op with
  | create =>
    cases live : sending.live with
    | true => simp [step, live] at stepped
    | false =>
      obtain ⟨_, returns, kept⟩ := create_lined positive lined live
      exact determined returns kept
  | push message =>
    cases live : sending.live with
    | false => simp [step, live] at stepped
    | true =>
      obtain ⟨_, returns, kept⟩ := push_lined positive lined live message
      exact determined returns kept
  | drop =>
    cases live : sending.live with
    | false => simp [step, live] at stepped
    | true =>
      obtain ⟨_, returns, kept⟩ := drop_lined positive lined live
      exact determined returns kept
  | other op =>
    simp only [step] at stepped
    split at stepped
    · cases stepped
    · obtain ⟨system, moved, rfl⟩ := Option.map_eq_some_iff.mp stepped
      exact other_lined lined moved

end Steps

private theorem initial_lined (capacity : Nat) (shared : Bool) (states : (i : ι) → (lawful i).State) :
    Lined capacity (initial (.new shared) states) := by
  refine ⟨initial_tracks shared states, ?_, Nat.le_refl _, ?_, fun _ => rfl, rfl, ?_, ?_⟩
  all_goals simp [initial, Sending.flushed]

/-- Buffers on a notifier in any use: every push finds room and returns; the batches
are full except for the last, hold what was pushed in order, and are passed once each,
like all others, to every registration that was made before and is still alive. -/
theorem buffered_sending [VecGrowth] {capacity : Nat} (positive : 0 < capacity) {shared : Bool}
    {states : (i : ι) → (lawful i).State} {last : Sending (machines lawful)}
    (run : Reaches (step capacity) Free (initial (.new shared) states) last) :
    (last.live = true → last.buffer.length < capacity ∧
      (∀ message, ∃ after, step capacity (.push message) last = some after) ∧
      ∃ after, step capacity .drop last = some after) ∧
    last.flushed.flatten ++ last.buffer = last.pushed ∧ (last.live = false → last.flushed.flatten = last.pushed) ∧
    (∀ batch ∈ last.flushed, batch ≠ [] ∧ batch.length ≤ capacity) ∧
    (∀ batch ∈ if last.live then last.flushed else last.flushed.dropLast, batch.length = capacity) ∧
    ∀ registration ∈ last.registrations, last.system.alive registration.1.listener = true →
      callsTo registration.1 last.system.delivered = (last.sends.drop registration.2).map (·.2) := by
  have lined : Lined capacity last := by
    apply run.invariant _ (initial_lined capacity shared states)
    intro op before after _ stepped lined
    exact step_lined positive lined stepped
  refine ⟨fun live => ⟨lined.room live, ?_, ?_⟩, lined.joined, ?_, lined.sized, lined.full, ?_⟩
  · intro message
    obtain ⟨after, returns, _⟩ := push_lined positive lined live message
    exact ⟨after, returns⟩
  · obtain ⟨after, returns, _⟩ := drop_lined positive lined live
    exact ⟨after, returns⟩
  · intro dropped
    have joined := lined.joined
    rwa [lined.idle dropped, List.append_nil] at joined
  · intro registration member alive
    exact lined.tracks.exact _ (List.mem_map_of_mem member) alive

/-- A pair, a message of somebody else's, and a rest that is sent when the buffer is dropped. -/
def pairAndRest : List (Op (machines fun _ : Unit => logMachine)) :=
  [.other (.listen ()), .create, .push 1, .push 2, .push 3, .other (.notify 9), .drop]

theorem buffered_sending_pair_and_rest : ∃ last : Sending (machines fun _ : Unit => logMachine),
    exec (@step _ _ _ _ .usual 2) pairAndRest (initial (.new true) fun _ => some []) = some last ∧
      last.flushed = [[1, 2], [3]] ∧ callsTo ⟨0, ()⟩ last.system.delivered = [[1, 2], [9], [3]] := by
  have run : ∃ last, exec (@step _ _ _ _ .usual 2) pairAndRest (initial (.new true) fun _ => some []) = some last ∧
      last.flushed = [[1, 2], [3]] ∧ last.system.alive () = true ∧ last.registrations = [(⟨0, ()⟩, 0)] ∧
      last.sends = [(true, [1, 2]), (false, [9]), (true, [3])] := ⟨_, rfl, rfl, rfl, rfl, rfl⟩
  obtain ⟨last, executed, flushed, alive, registrations, sends⟩ := run
  have calls := (@buffered_sending _ _ _ _ .usual 2 (by decide) _ _ _ (exec_reaches executed)).2.2.2.2.2
    (⟨0, ()⟩, 0) (by rw [registrations]; exact List.mem_singleton_self _) alive
  rw [sends] at calls
  exact ⟨last, executed, flushed, calls⟩

end Buffered

end Nosy
