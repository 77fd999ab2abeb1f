import Nosy.BufferUnwinding
import Nosy.Proofs.BroadcastRefinement

/-! A flush that fails leaves its buffer full. As long as every flush of a push is
accepted, the buffer keeps its promises; the first that is not breaks them. -/

namespace Nosy.Unwinding
open RawNotifier Transition
open EStateM (Result)
open Broadcast (callsTo callsTo_append callsTo_batch)
open Pruning (settled)

section Tables
variable {M L W : Type} {receive : Receive M L W} (invariant : W → Prop)

private theorem retain_kept (asks : ∀ listener before, invariant before → invariant (settled (receive listener [] before)))
    (fuel index : Nat) (entries : List (NotifierEntry L)) {world : W} (initial : invariant world) :
    invariant (settled (RetainSwap.retain (stillAlive receive) fuel index entries world).2) := by
  induction fuel generalizing index entries world with
  | zero => exact initial
  | succ fuel ih =>
    simp only [RetainSwap.retain]
    cases entries[index]? with
    | none => exact initial
    | some entry =>
      have asked : invariant (settled (stillAlive receive entry world)) := by
        unfold stillAlive
        split
        · exact asks entry.listener world initial
        · exact initial
      dsimp only
      split
      next failure after answered => rwa [answered] at asked
      next after answered =>
        rw [answered] at asked
        exact ih (index + 1) entries asked
      next after answered =>
        rw [answered] at asked
        exact ih index _ asked

theorem register_kept [VecGrowth]
    (asks : ∀ listener before, invariant before → invariant (settled (receive listener [] before)))
    (raw : RawNotifier L) (listener : L) {world : W} (initial : invariant world) :
    invariant (settled (raw.register receive listener world).2) ∧
      ((raw.register receive listener world).1.listeners.map (·.listener)).Subperm
        (raw.listeners.map (·.listener) ++ [listener]) := by
  have unchanged : (raw.listeners.map (·.listener)).Subperm (raw.listeners.map (·.listener) ++ [listener]) :=
    (List.sublist_append_left _ _).subperm
  have asked := asks listener world initial
  unfold register
  split
  next failure after answered =>
    rw [answered] at asked
    exact ⟨asked, unchanged⟩
  next after answered =>
    rw [answered] at asked
    exact ⟨asked, unchanged⟩
  next after answered =>
    rw [answered] at asked
    have pruned : invariant (settled (raw.dropDeadIfFull receive after).2) ∧
        ((raw.dropDeadIfFull receive after).1.listeners.map (·.listener)).Subperm (raw.listeners.map (·.listener)) := by
      unfold dropDeadIfFull
      split
      · obtain ⟨kept, same, fewer⟩ :=
          RetainSwap.retain_subperm (stillAlive receive) raw.listeners.length 0 raw.listeners after
        exact ⟨retain_kept invariant asks _ _ _ asked, _, same.map _, fewer.map _⟩
      · exact ⟨asked, List.Subperm.refl _⟩
    split
    next table failure last looped =>
      rw [looped] at pruned
      exact ⟨pruned.1, pruned.2.trans (List.sublist_append_left _ _).subperm⟩
    next table last looped =>
      rw [looped] at pruned
      refine ⟨pruned.1, ?_⟩
      simp only [push, List.map_append]
      exact (List.subperm_append_right _).mpr pruned.2

end Tables

variable {ι M : Type} [DecidableEq ι] {machine : ι → FallibleMachine M}

/-- The world after a listener was handed a batch, whether it has panicked or not. -/
private def handed (registration : Registration ι) (messages : List M) (world : Broadcast.World (calm machine)) :
    Broadcast.World (calm machine) :=
  settled (Broadcast.call (calm machine) registration messages world)

private theorem deliver_cons (messages : List M) (entry : NotifierEntry (Registration ι))
    (rest : List (NotifierEntry (Registration ι)))
    (first : Broadcast.World (calm machine)) :
    (deliver (call machine) messages (entry :: rest) first).2 =
      if (machine entry.listener.listener).panics (first.states entry.listener.listener) messages = true then
        .error (.panicked "receive") (handed entry.listener messages first)
      else (deliver (call machine) messages rest (handed entry.listener messages first)).2 := by
  by_cases panics : (machine entry.listener.listener).panics (first.states entry.listener.listener) messages = true
  all_goals simp only [deliver, call, panics, Broadcast.call, Bool.false_eq_true, if_true, if_false]
  all_goals rfl

private theorem deliver_told (messages : List M) (entries : List (NotifierEntry (Registration ι)))
    (first : Broadcast.World (calm machine)) :
    ∃ told, told <+: entries.map (·.listener) ∧
      (settled (deliver (call machine) messages entries first).2).calls =
        first.calls ++ told.map fun registration => (registration, messages) := by
  induction entries generalizing first with
  | nil => exact ⟨[], List.nil_prefix, (List.append_nil _).symm⟩
  | cons entry rest ih =>
    rw [deliver_cons]
    split
    · exact ⟨[entry.listener], List.cons_prefix_cons.mpr ⟨rfl, List.nil_prefix⟩, rfl⟩
    · obtain ⟨told, first_told, calls⟩ := ih (handed entry.listener messages first)
      refine ⟨entry.listener :: told, List.cons_prefix_cons.mpr ⟨rfl, first_told⟩, ?_⟩
      rw [calls, List.map_cons]
      exact List.append_assoc _ [_] _

/-- The loop goes through if and only if nobody panics. -/
private theorem deliver_failed (messages : List M) (entries : List (NotifierEntry (Registration ι)))
    (first : Broadcast.World (calm machine)) :
    failed (deliver (call machine) messages entries first).2 = !tolerates machine messages entries first.states := by
  induction entries generalizing first with
  | nil => rfl
  | cons entry rest ih =>
    rw [deliver_cons]
    split
    next panics => simp [tolerates, panics, failed]
    next calmly =>
      rw [ih, tolerates]
      simp [calmly, handed, Broadcast.call, settled]

def names (notifier : Notifier (Registration ι)) : List (Registration ι) :=
  (Handle.shared notifier).entries.map (·.listener)

/-- A flush empties the buffer or fails, and hands the batch to each registration at
most once. -/
structure Flushes (this : Buffer M (Registration ι)) (world : Broadcast.World (calm machine)) : Prop where
  fails : failed (Buffer.flush (call machine) this world).2 = !accepts machine this.buffer world.states this.notifier
  buffer : (Buffer.flush (call machine) this world).1.buffer =
    if accepts machine this.buffer world.states this.notifier then [] else this.buffer
  names : names (Buffer.flush (call machine) this world).1.notifier = names this.notifier
  told : ∃ told, told <+: Unwinding.names this.notifier ∧
    (settled (Buffer.flush (call machine) this world).2).calls =
      world.calls ++ told.map fun registration => (registration, this.buffer)

omit [DecidableEq ι] in
theorem flush_opened {W : Type} {receive : Receive M (Registration ι) W} (buffer : List M)
    (raw : RawNotifier (Registration ι)) (world : W) :
    Buffer.flush receive ⟨buffer, .opened raw⟩ world =
      (⟨if failed (deliver receive buffer raw.listeners world).2 then buffer else [],
        .opened { raw with listeners := (deliver receive buffer raw.listeners world).1 }⟩,
        (deliver receive buffer raw.listeners world).2) := by
  simp only [Buffer.flush, BufferOf.flush, Notifier.notifyMany, RawNotifier.notifyMany]
  rcases deliver receive buffer raw.listeners world with ⟨updated, _ | _⟩ <;> rfl

theorem flush_flushes (this : Buffer M (Registration ι)) (world : Broadcast.World (calm machine)) : Flushes this world := by
  obtain ⟨buffer, raw | _⟩ := this
  · have fails := deliver_failed buffer raw.listeners world
    refine ⟨?_, ?_, ?_, ?_⟩
    all_goals rw [flush_opened]
    · exact fails
    · rw [fails]
      by_cases answer : tolerates machine buffer raw.listeners world.states = true
      all_goals simp [accepts, answer]
    · exact deliver_listeners raw.listeners world
    · exact deliver_told buffer raw.listeners world
  · exact ⟨rfl, rfl, rfl, [], List.nil_prefix, (List.append_nil _).symm⟩

/-- The state between two operations that all went well. While the buffer exists,
what was handed over comes before what is in it. -/
structure Kept (capacity : Nat) (sending : Sending machine) : Prop where
  intact : Intact capacity sending
  calm : sending.dropped = false → sending.unwinding = false
  distinct : (names sending.this.notifier).Nodup
  numbered : ∀ registration ∈ names sending.this.notifier, registration.number < sending.registered
  ahead : sending.dropped = false → ∃ sent, sent ++ sending.this.buffer = sending.pushed ∧
    ∀ registration, (callsTo registration sending.world.calls).flatten.Sublist sent

private theorem told_sublist {table told : List (Registration ι)} (distinct : table.Nodup) (first : told <+: table)
    {calls : List (Registration ι × List M)} {registration : Registration ι} {sent messages : List M}
    (earlier : (callsTo registration calls).flatten.Sublist sent) :
    (callsTo registration (calls ++ told.map fun registration => (registration, messages))).flatten.Sublist
      (sent ++ messages) := by
  have once : told.count registration ≤ 1 := List.nodup_iff_count_le_one.mp (first.sublist.nodup distinct) registration
  rw [callsTo_append, callsTo_batch, List.flatten_append]
  apply earlier.append
  rcases Nat.le_one_iff_eq_zero_or_eq_one.mp once with none | one
  · rw [none]
    exact List.nil_sublist messages
  · rw [one, List.replicate_one, List.flatten_singleton]

private theorem Flushes.once {this : Buffer M (Registration ι)} {world : Broadcast.World (Unwinding.calm machine)}
    (flushes : Flushes this world) (distinct : (Unwinding.names this.notifier).Nodup) {sent : List M}
    (earlier : ∀ registration, (callsTo registration world.calls).flatten.Sublist sent) (registration : Registration ι) :
    (callsTo registration (settled (Buffer.flush (call machine) this world).2).calls).flatten.Sublist
      (sent ++ this.buffer) := by
  obtain ⟨told, first, calls⟩ := flushes.told
  rw [calls]
  exact told_sublist distinct first (earlier registration)

section Steps
variable {capacity : Nat} {sending after : Sending machine}

private theorem Kept.live (room : sending.this.buffer.length < capacity)
    (unwound : sending.aborted = false) (calm : sending.unwinding = false) (distinct : (names sending.this.notifier).Nodup)
    (numbered : ∀ registration ∈ names sending.this.notifier, registration.number < sending.registered)
    {sent : List M} (joined : sent ++ sending.this.buffer = sending.pushed)
    (once : ∀ registration, (callsTo registration sending.world.calls).flatten.Sublist sent) : Kept capacity sending := by
  refine ⟨⟨fun _ => room, unwound, ?_⟩, fun _ => calm, distinct, numbered, fun _ => ⟨sent, joined, once⟩⟩
  intro registration
  rw [← joined]
  exact (once registration).trans (List.sublist_append_left _ _)

/-- A push into a buffer with room either stores the message or flushes. -/
theorem push_spec {this : Buffer M (Registration ι)} (room : this.buffer.length < capacity) (message : M)
    (world : Broadcast.World (calm machine)) :
    Buffer.push (call machine) capacity message this world =
      if this.buffer.length + 1 = capacity then
        Buffer.flush (call machine) { this with buffer := this.buffer ++ [message] } world
      else ({ this with buffer := this.buffer ++ [message] }, .ok () world) := by
  simp only [Buffer.push, BufferOf.push, if_pos room, List.length_append, List.length_singleton]
  rfl

private theorem query_silent (calls : Registration ι → List M) (registration : Registration ι)
    (world : Broadcast.World (calm machine))
    (before : ∀ registration, (callsTo registration world.calls).flatten = calls registration) :
    ∀ other, (callsTo other (settled (call machine registration [] world)).calls).flatten = calls other := by
  intro other
  have silent : (callsTo other (world.calls ++ [(registration, ([] : List M))])).flatten = calls other := by
    rw [callsTo_append, List.flatten_append, before]
    by_cases same : registration = other
    all_goals simp [callsTo, same]
  unfold call
  split <;> exact silent

omit [DecidableEq ι] in
private theorem added_distinct {before after : List (Registration ι)} {registered : Nat} {listener : ι}
    (distinct : before.Nodup)
    (numbered : ∀ registration ∈ before, registration.number < registered)
    (added : after.Subperm (before ++ [⟨registered, listener⟩])) :
    after.Nodup ∧ ∀ registration ∈ after, registration.number < registered + 1 := by
  have new : (before ++ [(⟨registered, listener⟩ : Registration ι)]).Nodup := by
    rw [List.nodup_append]
    refine ⟨distinct, by simp, fun old member added single => ?_⟩
    rw [List.mem_singleton.mp single]
    rintro rfl
    exact Nat.lt_irrefl _ (numbered _ member)
  obtain ⟨listed, same, sublist⟩ := added
  refine ⟨same.nodup_iff.mp (List.Nodup.sublist sublist new), ?_⟩
  intro registration member
  rcases List.mem_append.mp (sublist.subset (same.mem_iff.mpr member)) with old | last
  · exact Nat.lt_succ_of_lt (numbered registration old)
  · rw [List.mem_singleton.mp last]
    exact Nat.lt_succ_self _

variable [VecGrowth]

/-- A push that fills the buffer is accepted by the notifier and its listeners. -/
def Sound (capacity : Nat) (op : Op machine) (sending : Sending machine) : Prop :=
  match op with
  | .push message => sending.this.buffer.length + 1 = capacity →
      accepts machine (sending.this.buffer ++ [message]) sending.world.states sending.this.notifier = true
  | _ => True

theorem push_kept (positive : 0 < capacity) (kept : Kept capacity sending) {message : M}
    (sound : Sound capacity (.push message) sending) (stepped : step capacity (.push message) sending = some after) :
    Kept capacity after := by
  simp only [step] at stepped
  split at stepped
  · cases stepped
  next live =>
    rw [Bool.not_eq_true] at live
    have room := kept.intact.room live
    have unwound := kept.intact.unwound
    obtain ⟨sent, joined, once⟩ := kept.ahead live
    rw [push_spec room] at stepped
    split at stepped
    next full =>
      have flushes := flush_flushes { sending.this with buffer := sending.this.buffer ++ [message] } sending.world
      have accepted := sound full
      cases stepped
      apply Kept.live
      case room =>
        rw [flushes.buffer, if_pos accepted]
        exact positive
      case unwound => exact unwound
      case calm => exact flushes.fails.trans (by simp only [accepted, Bool.not_true])
      case distinct => exact flushes.names ▸ kept.distinct
      case numbered => exact flushes.names ▸ kept.numbered
      case joined => rw [flushes.buffer, if_pos accepted, List.append_nil]
      case once =>
        intro registration
        rw [← joined, List.append_assoc]
        exact flushes.once kept.distinct once registration
    next short =>
      cases stepped
      apply Kept.live
      case room =>
        simp only [List.length_append, List.length_singleton]
        omega
      case unwound => exact unwound
      case calm => rfl
      case distinct => exact kept.distinct
      case numbered => exact kept.numbered
      case once => exact once
      case joined =>
        rw [← joined]
        exact (List.append_assoc ..).symm

theorem drop_kept (kept : Kept capacity sending) (stepped : step capacity .drop sending = some after) :
    Kept capacity after := by
  simp only [step] at stepped
  split at stepped
  · cases stepped
  next live =>
    rw [Bool.not_eq_true] at live
    obtain ⟨sent, joined, once⟩ := kept.ahead live
    cases stepped
    have calm := kept.calm live
    have flushes := flush_flushes sending.this sending.world
    have dropped : Buffer.drop (call machine) sending.this sending.world = if sending.this.buffer.isEmpty then
        (sending.this, .ok () sending.world) else Buffer.flush (call machine) sending.this sending.world := rfl
    have never {impossible : Prop} (absurdity : true = false) : impossible := nomatch absurdity
    rw [dropped, calm]
    split
    · exact ⟨⟨never, rfl, kept.intact.once⟩, never, kept.distinct, kept.numbered, never⟩
    · refine ⟨⟨never, rfl, ?_⟩, never, flushes.names ▸ kept.distinct, flushes.names ▸ kept.numbered, never⟩
      intro registration
      rw [← joined]
      exact flushes.once kept.distinct once registration

theorem listen_kept (kept : Kept capacity sending) {listener : ι}
    (stepped : step capacity (.listen listener) sending = some after) : Kept capacity after := by
  cases stepped
  obtain ⟨⟨buffer, raw | _⟩, world, registered, pushed, unwinding, dropped, aborted⟩ := sending
  · let silently (after : Broadcast.World (calm machine)) : Prop :=
      ∀ other, (callsTo other after.calls).flatten = (callsTo other world.calls).flatten
    have begun : silently world := fun _ => rfl
    obtain ⟨silent, added⟩ := register_kept silently
      (fun registration before same => query_silent _ registration before same) raw ⟨registered, listener⟩ begun
    obtain ⟨distinct, numbered⟩ := added_distinct kept.distinct kept.numbered added
    refine ⟨⟨kept.intact.room, kept.intact.unwound, ?_⟩, kept.calm, distinct, numbered, ?_⟩
    · intro registration
      exact silent registration ▸ kept.intact.once registration
    · intro live
      obtain ⟨sent, joined, once⟩ := kept.ahead live
      refine ⟨sent, joined, fun registration => ?_⟩
      exact silent registration ▸ once registration
  · exact ⟨⟨kept.intact.room, kept.intact.unwound, kept.intact.once⟩, kept.calm, kept.distinct,
      (fun registration member => nomatch member), kept.ahead⟩

theorem step_kept (positive : 0 < capacity) (kept : Kept capacity sending) {op : Op machine}
    (sound : Sound capacity op sending) (stepped : step capacity op sending = some after) : Kept capacity after := by
  cases op with
  | push message => exact push_kept positive kept sound stepped
  | drop => exact drop_kept kept stepped
  | listen listener => exact listen_kept kept stepped
  | close =>
    cases stepped
    refine ⟨⟨kept.intact.room, kept.intact.unwound, kept.intact.once⟩, kept.calm, List.nodup_nil, ?_, kept.ahead⟩
    intro registration member
    cases member
  | evolve listener next =>
    cases stepped
    exact ⟨⟨kept.intact.room, kept.intact.unwound, kept.intact.once⟩, kept.calm, kept.distinct, kept.numbered, kept.ahead⟩

/-- A flush that is not accepted leaves no room for the next push. -/
theorem push_room (kept : Kept capacity sending) {message : M}
    (stepped : step capacity (.push message) sending = some after) (intact : Intact capacity after) :
    Sound capacity (.push message) sending := by
  intro full
  simp only [step] at stepped
  split at stepped
  · cases stepped
  next live =>
    rw [Bool.not_eq_true] at live
    rw [push_spec (kept.intact.room live), if_pos full] at stepped
    have flushes := flush_flushes { sending.this with buffer := sending.this.buffer ++ [message] } sending.world
    cases stepped
    have room := intact.room live
    rw [flushes.buffer] at room
    by_contra refused
    rw [if_neg refused, List.length_append, List.length_singleton] at room
    omega

omit [VecGrowth] in
private theorem initial_kept (positive : 0 < capacity) (states : States machine) : Kept capacity (initial states) := by
  apply Kept.live
  case room => exact positive
  case unwound => rfl
  case calm => rfl
  case distinct => exact List.nodup_nil
  case numbered => exact (fun registration member => nomatch member)
  case joined => exact List.append_nil _
  case once => exact fun registration => List.Sublist.refl _

/-- While every flush by a push is accepted, there is room after every push, no
message is handed to a registration twice, and a drop does not panic during unwinding.
A push keeps this exactly if its flush is accepted, where it makes one. -/
theorem sound_pushes_intact (positive : 0 < capacity) {states : States machine} {last : Sending machine}
    (run : Reaches (step capacity) (Sound capacity) (initial states) last) :
    Intact capacity last ∧ ∀ message after, step capacity (.push message) last = some after →
      (Intact capacity after ↔ Sound capacity (.push message) last) := by
  have kept : Kept capacity last := by
    apply run.invariant _ (initial_kept positive states)
    intro op before after sound stepped kept
    exact step_kept positive kept sound stepped
  refine ⟨kept.intact, fun message after stepped => ⟨push_room kept stepped, fun sound => ?_⟩⟩
  exact (push_kept positive kept sound stepped).intact

end Steps

/-- Listener 1 panics when it is told something. -/
def fragile : Nat → FallibleMachine Nat := fun id => {
  State := Unit
  receive := fun state _ => (true, state)
  panics := fun _ messages => id == 1 && !messages.isEmpty }

instance (capacity : Nat) (op : Op machine) (sending : Sending machine) : Decidable (Sound capacity op sending) :=
  match op with
  | .push message => inferInstanceAs (Decidable (sending.this.buffer.length + 1 = capacity →
      accepts machine (sending.this.buffer ++ [message]) sending.world.states sending.this.notifier = true))
  | .drop | .close | .listen _ | .evolve _ _ => .isTrue trivial

/-- The batch of two is accepted; the rest is not, but is sent by the drop. -/
def closedLate : List (Op fragile) := [.listen 0, .push 3, .push 4, .push 5, .close, .drop]

theorem sound_pushes_intact_closed_late : ∃ last : Sending fragile,
    last.world.calls = [(⟨0, 0⟩, []), (⟨0, 0⟩, [3, 4])] ∧ last.dropped = true ∧ Intact 2 last := by
  have run : ∃ last, exec (guarded (@step _ _ _ _ .usual 2) (Sound 2)) closedLate (initial fun _ => ()) = some last ∧
      last.world.calls = [(⟨0, 0⟩, []), (⟨0, 0⟩, [3, 4])] ∧ last.dropped = true := ⟨_, rfl, rfl, rfl⟩
  obtain ⟨last, executed, calls, dropped⟩ := run
  exact ⟨last, calls, dropped, (@sound_pushes_intact _ _ _ _ 2 .usual (by decide) _ _ (guarded_reaches executed)).1⟩

/-- The second listener panics in a flush. The buffer stays full; when the unwinding
drops it, it panics again, and the first listener has been told twice. -/
def secondPanics : List (Op fragile) := [.listen 0, .listen 1, .push 5]

theorem refused_push_not_intact : ∃ full last : Sending fragile,
    exec (@step _ _ _ _ .usual 1) secondPanics (initial fun _ => ()) = some full ∧
    full.unwinding = true ∧ full.this.buffer.length = 1 ∧
    @step _ _ _ _ .usual 1 .drop full = some last ∧ last.aborted = true ∧ last.pushed = [5] ∧
    callsTo ⟨0, 0⟩ last.world.calls = [[], [5], [5]] :=
  ⟨_, _, rfl, rfl, rfl, rfl, rfl, rfl, rfl⟩

end Nosy.Unwinding
