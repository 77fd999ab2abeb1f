import Mathlib.Data.List.Nodup
import Nosy.Broadcast
import Nosy.Proofs.NotifierTable

/-! A notifier agrees with a broadcaster that never removes anything, as far as
any listener that is still alive can tell. -/

namespace Nosy.Broadcast
open EStateM (Result)
open RawNotifier (Answers)

variable {ι M : Type} [DecidableEq ι]

@[simp] theorem callsTo_nil (registration : Registration ι) :
    callsTo registration ([] : List (Registration ι × List M)) = [] := rfl

@[simp] theorem callsTo_append (registration : Registration ι) (first later : List (Registration ι × List M)) :
    callsTo registration (first ++ later) = callsTo registration first ++ callsTo registration later := by
  simp [callsTo]

/-- One batch sent to every registration of a table reaches each as often as it
is stored. -/
theorem callsTo_batch (registration : Registration ι) (table : List (Registration ι)) (messages : List M) :
    callsTo registration (table.map fun stored => (stored, messages)) =
      List.replicate (table.count registration) messages := by
  induction table with
  | nil => rfl
  | cons stored rest ih =>
    by_cases same : stored = registration
    · subst same
      simpa [callsTo, List.replicate_succ] using ih
    · simpa [callsTo, same] using ih

private theorem callsTo_fresh {registration : Registration ι} {calls : List (Registration ι × List M)}
    (fresh : ∀ call ∈ calls, call.1.number < registration.number) : callsTo registration calls = [] := by
  simp only [callsTo, List.map_eq_nil_iff, List.filter_eq_nil_iff, decide_eq_true_eq]
  intro call member same
  exact absurd (fresh call member) (by rw [same]; exact Nat.lt_irrefl _)

section Lawful
variable (lawful : LawfulMachine M)

private theorem dead_answers {state : lawful.State} (dead : lawful.alive state = false) (messages : List M) :
    (lawful.receive state messages).1 = false := by
  have later := lawful.dead_stays state [] messages dead
  rwa [lawful.query_inert] at later

private theorem dead_after {state : lawful.State} {messages : List M}
    (answered : (lawful.receive state messages).1 = false) :
    lawful.alive (lawful.receive state messages).2 = false :=
  lawful.dead_stays state messages [] answered

private theorem dead_stays_dead {state : lawful.State} (dead : lawful.alive state = false) (messages : List M) :
    lawful.alive (lawful.receive state messages).2 = false :=
  dead_after lawful (dead_answers lawful dead messages)

end Lawful

variable {lawful : ι → LawfulMachine M}

/-- The state machines alone, without the proofs that they keep the contract. -/
abbrev machines (lawful : ι → LawfulMachine M) : ι → Machine M := fun i => (lawful i).toMachine

/-- A listener that was dead stays dead. -/
private def Ages (before after : (i : ι) → (lawful i).State) : Prop :=
  ∀ i, (lawful i).alive (before i) = false → (lawful i).alive (after i) = false

theorem call_total (lawful : ι → LawfulMachine M) : RawNotifier.Total (call (machines lawful)) :=
  fun _ _ _ => ⟨_, _, rfl⟩

private theorem call_ages (lawful : ι → LawfulMachine M) (registration : Registration ι) (messages : List M)
    (states : (i : ι) → (lawful i).State) :
    Ages states (Function.update states registration.listener
      ((lawful registration.listener).receive (states registration.listener) messages).2) := by
  intro i dead
  by_cases same : i = registration.listener
  · subst same
    rw [Function.update_self]
    exact dead_stays_dead _ dead messages
  · rwa [Function.update_of_ne same]

private theorem deliver_call {messages : List M} {entries updated : List (NotifierEntry (Registration ι))}
    {first last : World (machines lawful)}
    (delivered : RawNotifier.deliver (call (machines lawful)) messages entries first = (updated, .ok () last)) :
    last.calls = first.calls ++ (entries.map (·.listener)).map (fun stored => (stored, messages)) ∧
      Ages first.states last.states ∧
      ∀ entry ∈ updated, entry.wasAlive = false →
        (∃ old ∈ entries, old.listener = entry.listener ∧ old.wasAlive = false) ∨
        (lawful entry.listener.listener).alive (last.states entry.listener.listener) = false := by
  induction entries generalizing first updated with
  | nil =>
    cases delivered
    exact ⟨by simp, fun _ dead => dead, by simp⟩
  | cons entry rest ih =>
    obtain ⟨alive, middle, tail, called, later, rfl⟩ := RawNotifier.deliver_cons_ok.mp delivered
    cases called
    obtain ⟨calls, ages, flags⟩ := ih later
    have aged := call_ages lawful entry.listener messages first.states
    refine ⟨by simpa using calls, fun i dead => ages i (aged i dead), ?_⟩
    intro found member cleared
    rcases List.mem_cons.mp member with rfl | member
    · -- the entry just called: its flag was cleared before, or by this call
      rcases Bool.and_eq_false_iff.mp cleared with old | answered
      · exact .inl ⟨entry, by simp, rfl, old⟩
      · refine .inr (ages _ ?_)
        simp only [RawNotifier.fetchAnd_listener, Function.update_self]
        exact dead_after _ answered
    · rcases flags found member cleared with ⟨old, inside, same, flag⟩ | dead
      · exact .inl ⟨old, by simp [inside], same, flag⟩
      · exact .inr dead

/-- A liveness query leaves every state as it was and records an empty batch. -/
def Queried (states : (i : ι) → (lawful i).State) (world : World (machines lawful)) : Prop :=
  world.states = states ∧ ∀ made ∈ world.calls, made.2 = []

theorem call_answers (states : (i : ι) → (lawful i).State) :
    Answers (call (machines lawful)) (Queried states)
      (fun registration => (lawful registration.listener).alive (states registration.listener)) := by
  rintro registration before alive after ⟨rfl, empty⟩ called
  cases called
  refine ⟨rfl, ?_, ?_⟩
  · have inert := (lawful registration.listener).query_inert (before.states registration.listener)
    change Function.update before.states registration.listener
      ((lawful registration.listener).receive (before.states registration.listener) []).2 = before.states
    rw [inert, Function.update_eq_self]
  · intro made member
    rcases List.mem_append.mp member with old | new
    · exact empty made old
    · rw [List.mem_singleton.mp new]

/-- No operation of this module closes a notifier. -/
def Accepting {L : Type} : Handle L → Prop
  | .shared .closed => False
  | _ => True

section Operations
variable {L W : Type} {receive : Receive M L W} {handle after : Handle L} {first last : W}

theorem notify_eq (message : M) : handle.notify receive message first = handle.notifyMany receive [message] first := by
  rcases handle with _ | (_ | _) <;> rfl

theorem listenRaw_eq [VecGrowth] (listener : L) :
    handle.listenRaw receive listener first = handle.listen receive listener first := by
  rcases handle with _ | (_ | _) <;> rfl

theorem notifyMany_ok {messages : List M} (accepting : Accepting handle)
    (sent : handle.notifyMany receive messages first = (after, .ok () last)) :
    Accepting after ∧ RawNotifier.deliver receive messages handle.entries first = (after.entries, .ok () last) := by
  rcases handle with raw | (raw | _)
  · cases delivered : RawNotifier.deliver receive messages raw.listeners first with
    | mk updated outcome =>
      simp only [Handle.notifyMany, RawNotifier.notifyMany, delivered] at sent
      cases sent
      exact ⟨trivial, delivered⟩
  · cases delivered : RawNotifier.deliver receive messages raw.listeners first with
    | mk updated outcome =>
      simp only [Handle.notifyMany, Notifier.notifyMany, RawNotifier.notifyMany, delivered] at sent
      cases sent
      exact ⟨trivial, delivered⟩
  · exact accepting.elim

theorem listen_ok [VecGrowth] {listener : L} {invariant : W → Prop} {answer : L → Bool}
    (asks : Answers receive invariant answer) (initial : invariant first) (accepting : Accepting handle)
    (registered : handle.listen receive listener first = (after, .ok () last)) :
    Accepting after ∧ invariant last ∧ RawNotifier.Registers answer listener handle.entries after.entries := by
  rcases handle with raw | (raw | _)
  · cases stored : raw.register receive listener first with
    | mk table outcome =>
      simp only [Handle.listen, RawNotifier.listen, stored] at registered
      cases registered
      exact ⟨trivial, RawNotifier.register_registers asks initial stored⟩
  · cases stored : raw.register receive listener first with
    | mk table outcome =>
      simp only [Handle.listen, Notifier.listen, RawNotifier.listen, stored] at registered
      cases registered
      exact ⟨trivial, RawNotifier.register_registers asks initial stored⟩
  · exact accepting.elim

/-- The two counts: one leaves the table alone, the other prunes it. -/
theorem count_cases {total : Nat} (accepting : Accepting handle)
    (counted : handle.count receive first = (after, .ok total last)) :
    (∃ raw, handle = .raw raw ∧ after = .raw raw ∧ raw.count receive first = .ok total last) ∨
      ∃ raw pruned, handle = .shared (.opened raw) ∧ after = .shared (.opened pruned) ∧
        raw.dropDeadListeners receive first = (pruned, .ok () last) ∧ total = pruned.listeners.length := by
  rcases handle with raw | (raw | _)
  · simp only [Handle.count, Prod.mk.injEq] at counted
    obtain ⟨rfl, counted⟩ := counted
    exact .inl ⟨raw, rfl, rfl, counted⟩
  · cases pruned : raw.dropDeadListeners receive first with
    | mk left outcome =>
      simp only [Handle.count, Notifier.count, Notifier.dropDeadListeners, pruned] at counted
      cases outcome with
      | error failure stopped => cases counted
      | ok _ ended =>
        cases counted
        exact .inr ⟨raw, left, rfl, rfl, pruned, rfl⟩
  · exact accepting.elim

theorem count_ok {total : Nat} {invariant : W → Prop} {answer : L → Bool}
    (asks : Answers receive invariant answer) (initial : invariant first) (accepting : Accepting handle)
    (counted : handle.count receive first = (after, .ok total last)) :
    Accepting after ∧ invariant last ∧ RawNotifier.Prunes answer handle.entries after.entries := by
  rcases count_cases accepting counted with ⟨raw, rfl, rfl, asked⟩ | ⟨raw, pruned, rfl, rfl, dropped, _⟩
  · exact ⟨trivial, (RawNotifier.count_ok asks initial asked).2, .refl _ _⟩
  · obtain ⟨same, _, still⟩ := RawNotifier.dropDeadListeners_ok asks initial dropped
    exact ⟨trivial, still, _, fun entry flag alive => by simp [flag, alive], same⟩

theorem listen_total [VecGrowth] (total : RawNotifier.Total receive) (listener : L) (accepting : Accepting handle)
    (world : W) : ∃ after last, handle.listen receive listener world = (after, .ok () last) := by
  rcases handle with raw | (raw | _)
  · obtain ⟨table, last, stored⟩ := RawNotifier.register_total total listener raw world
    exact ⟨.raw table, last, by simp only [Handle.listen, RawNotifier.listen, stored]⟩
  · obtain ⟨table, last, stored⟩ := RawNotifier.register_total total listener raw world
    exact ⟨.shared (.opened table), last, by
      simp only [Handle.listen, Notifier.listen, RawNotifier.listen, stored]⟩
  · exact accepting.elim

theorem notifyMany_total (total : RawNotifier.Total receive) (messages : List M) (accepting : Accepting handle)
    (world : W) : ∃ after last, handle.notifyMany receive messages world = (after, .ok () last) := by
  rcases handle with raw | (raw | _)
  · obtain ⟨updated, last, delivered⟩ := RawNotifier.deliver_total messages total raw.listeners world
    exact ⟨.raw ⟨updated, raw.capacity⟩, last, by
      simp only [Handle.notifyMany, RawNotifier.notifyMany, delivered]⟩
  · obtain ⟨updated, last, delivered⟩ := RawNotifier.deliver_total messages total raw.listeners world
    exact ⟨.shared (.opened ⟨updated, raw.capacity⟩), last, by
      simp only [Handle.notifyMany, Notifier.notifyMany, RawNotifier.notifyMany, delivered]⟩
  · exact accepting.elim

theorem count_total (total : RawNotifier.Total receive) (accepting : Accepting handle) (world : W) :
    ∃ after counted last, handle.count receive world = (after, .ok counted last) := by
  rcases handle with raw | (raw | _)
  · obtain ⟨counted, last, asked⟩ := RawNotifier.count_total total raw world
    exact ⟨.raw raw, counted, last, by simp only [Handle.count, asked]⟩
  · obtain ⟨table, last, pruned⟩ := RawNotifier.dropDeadListeners_total total raw world
    exact ⟨.shared (.opened table), table.countApproximate, last, by
      simp only [Handle.count, Notifier.count, Notifier.dropDeadListeners, pruned]; rfl⟩
  · exact accepting.elim

end Operations

/-- The simulation relation. Live registrations are stored and have received what
they are owed; nothing is claimed about dead ones, which may be gone. -/
structure Tracks (system : System (machines lawful)) (naive : Naive ι M) : Prop where
  accepting : Accepting system.handle
  counted : naive.registered = system.registered
  numbered : ∀ entry ∈ system.handle.entries, entry.listener.number < system.registered
  distinct : (system.handle.entries.map (·.listener)).Nodup
  flags : ∀ entry ∈ system.handle.entries, entry.wasAlive = false →
    system.alive entry.listener.listener = false
  fresh : ∀ made ∈ system.delivered, made.1.number < system.registered
  known : ∀ owed ∈ naive.registrations, owed.1.number < system.registered
  stored : ∀ owed ∈ naive.registrations, system.alive owed.1.listener = true →
    ∃ entry ∈ system.handle.entries, entry.listener = owed.1
  exact : ∀ owed ∈ naive.registrations, system.alive owed.1.listener = true →
    callsTo owed.1 system.delivered = owed.2
  silent : ∀ made ∈ system.queried, made.2 = []

private theorem Tracks.flag_of_alive {system : System (machines lawful)} {naive : Naive ι M}
    (tracks : Tracks system naive)
    {entry : NotifierEntry (Registration ι)} (member : entry ∈ system.handle.entries)
    (alive : system.alive entry.listener.listener = true) : entry.wasAlive = true := by
  by_contra cleared
  have dead := tracks.flags entry member (by simpa using cleared)
  rw [alive] at dead
  cases dead

/-- What one operation owes to the registrations that were alive before it. -/
def Exact (naive : Naive ι M) (batches : List (List M)) (before after : System (machines lawful)) : Prop :=
  ∀ owed ∈ naive.registrations, before.alive owed.1.listener = true →
    callsTo owed.1 after.delivered = owed.2 ++ batches

omit [DecidableEq ι] in
private theorem alive_before {before after : System (machines lawful)} (ages : Ages before.states after.states)
    {listener : ι} (alive : after.alive listener = true) : before.alive listener = true := by
  cases old : before.alive listener with
  | true => rfl
  | false => exact absurd alive (by simp only [System.alive, ages listener old, Bool.false_eq_true, not_false_iff])

theorem sent_tracks {system after : System (machines lawful)} {naive : Naive ι M} {messages : List M}
    (tracks : Tracks system naive)
    (stepped : system.sent (system.handle.notifyMany (call (machines lawful)) messages system.world) = some after) :
    Tracks after ⟨naive.registrations.map fun owed => (owed.1, owed.2 ++ [messages]), naive.registered⟩ ∧
      Exact naive [messages] system after := by
  cases sent : system.handle.notifyMany (call (machines lawful)) messages system.world with
  | mk handle outcome =>
    rw [sent] at stepped
    rcases outcome with ⟨_, world⟩ | _
    case error => cases stepped
    obtain ⟨accepting, delivered⟩ := notifyMany_ok tracks.accepting sent
    obtain ⟨calls, ages, flags⟩ := deliver_call delivered
    have same : (RawNotifier.deliver (call (machines lawful)) messages system.handle.entries system.world).1.map
        (·.listener) = system.handle.entries.map (·.listener) := RawNotifier.deliver_listeners _ _
    rw [delivered] at same
    simp only [System.sent, Option.some.injEq] at stepped
    subst after
    have exact : Exact naive [messages] system
        { system with handle, states := world.states, delivered := system.delivered ++ world.calls } := by
      intro owed member alive
      obtain ⟨entry, inside, listener⟩ := tracks.stored owed member alive
      have once : (system.handle.entries.map (·.listener)).count owed.1 = 1 :=
        List.count_eq_one_of_mem tracks.distinct (listener ▸ List.mem_map_of_mem inside)
      simp only [calls, System.world, List.nil_append, callsTo_append, callsTo_batch, once,
        tracks.exact owed member alive, List.replicate_one]
    have stored (entry) (member : entry ∈ handle.entries) :
        ∃ old ∈ system.handle.entries, old.listener = entry.listener := by
      have inside : entry.listener ∈ handle.entries.map (·.listener) := List.mem_map_of_mem member
      rw [same] at inside
      simpa using inside
    refine ⟨⟨accepting, tracks.counted, ?_, ?_, ?_, ?_, ?_, ?_, ?_, tracks.silent⟩, exact⟩
    · intro entry member
      obtain ⟨old, inside, listener⟩ := stored entry member
      exact listener ▸ tracks.numbered old inside
    · rw [same]
      exact tracks.distinct
    · intro entry member cleared
      rcases flags entry member cleared with ⟨old, inside, listener, flag⟩ | dead
      · exact ages _ (listener ▸ tracks.flags old inside flag)
      · exact dead
    · intro made member
      rcases List.mem_append.mp member with old | new
      · exact tracks.fresh made old
      · simp only [calls, System.world, List.nil_append, List.map_map, List.mem_map, Function.comp_apply] at new
        obtain ⟨entry, inside, rfl⟩ := new
        exact tracks.numbered entry inside
    · intro owed member
      obtain ⟨old, inside, rfl⟩ := List.mem_map.mp member
      exact tracks.known old inside
    · intro owed member alive
      obtain ⟨old, inside, rfl⟩ := List.mem_map.mp member
      obtain ⟨entry, found, listener⟩ := tracks.stored old inside (alive_before ages alive)
      have present : old.1 ∈ handle.entries.map (·.listener) := by
        rw [same]
        exact listener ▸ List.mem_map_of_mem found
      simpa using present
    · intro owed member alive
      obtain ⟨old, inside, rfl⟩ := List.mem_map.mp member
      exact exact old inside (alive_before ages alive)

theorem listen_tracks [VecGrowth] {system after : System (machines lawful)} {naive : Naive ι M} {listener : ι}
    (tracks : Tracks system naive)
    (stepped : system.asked (system.registered + 1)
      (system.handle.listen (call (machines lawful)) ⟨system.registered, listener⟩ system.world) = some after) :
    Tracks after ⟨naive.registrations ++ [(⟨naive.registered, listener⟩, [])], naive.registered + 1⟩ ∧
      Exact naive [] system after := by
  cases asked : system.handle.listen (call (machines lawful)) ⟨system.registered, listener⟩ system.world with
  | mk handle outcome =>
    rw [asked] at stepped
    rcases outcome with ⟨_, world⟩ | _
    case error => cases stepped
    obtain ⟨accepting, ⟨states, empty⟩, registers⟩ := listen_ok (call_answers system.states)
      ⟨rfl, by simp [System.world]⟩ tracks.accepting asked
    simp only [System.asked, Option.some.injEq] at stepped
    subst after
    have alive_same (i : ι) : System.alive ({ system with
        handle, states := world.states, registered := system.registered + 1,
        queried := system.queried ++ world.calls } : System (machines lawful)) i = system.alive i := by
      simp only [System.alive, states]
    have exact : ∀ owed ∈ naive.registrations, system.alive owed.1.listener = true →
        callsTo owed.1 system.delivered = owed.2 ++ [] :=
      fun owed member alive => (tracks.exact owed member alive).trans (List.append_nil _).symm
    refine ⟨⟨accepting, congrArg (· + 1) tracks.counted, ?_, ?_, ?_, ?_, ?_, ?_, ?_, ?_⟩, exact⟩
    · intro entry member
      rcases registers.origin entry member with old | rfl
      · exact Nat.lt_succ_of_lt (tracks.numbered entry old)
      · exact Nat.lt_succ_self _
    · apply registers.nodup tracks.distinct
      intro member
      obtain ⟨entry, inside, same⟩ := List.mem_map.mp member
      have below := tracks.numbered entry inside
      rw [same] at below
      exact Nat.lt_irrefl _ below
    · intro entry member cleared
      rw [alive_same]
      rcases registers.origin entry member with old | rfl
      · exact tracks.flags entry old cleared
      · cases cleared
    · exact fun made member => Nat.lt_succ_of_lt (tracks.fresh made member)
    · intro owed member
      rcases List.mem_append.mp member with old | new
      · exact Nat.lt_succ_of_lt (tracks.known owed old)
      · rw [List.mem_singleton.mp new]
        exact tracks.counted ▸ Nat.lt_succ_self _
    · intro owed member alive
      rw [alive_same] at alive
      rcases List.mem_append.mp member with old | new
      · -- whatever was pruned, a live registration keeps its entry
        obtain ⟨entry, inside, same⟩ := tracks.stored owed old alive
        rw [← same] at alive
        exact ⟨entry, registers.keeps entry inside (tracks.flag_of_alive inside alive) alive, same⟩
      · obtain rfl := List.mem_singleton.mp new
        exact ⟨⟨⟨system.registered, listener⟩, true⟩, registers.added alive, by rw [tracks.counted]⟩
    · intro owed member alive
      rw [alive_same] at alive
      rcases List.mem_append.mp member with old | new
      · exact tracks.exact owed old alive
      · obtain rfl := List.mem_singleton.mp new
        exact callsTo_fresh fun made inside => tracks.counted ▸ tracks.fresh made inside
    · intro made member
      exact (List.mem_append.mp member).elim (tracks.silent made) (empty made)

theorem count_tracks {system after : System (machines lawful)} {naive : Naive ι M}
    (tracks : Tracks system naive)
    (stepped : system.asked system.registered
      (system.handle.count (call (machines lawful)) system.world) = some after) :
    Tracks after naive ∧ Exact naive [] system after := by
  cases asked : system.handle.count (call (machines lawful)) system.world with
  | mk handle outcome =>
    rw [asked] at stepped
    rcases outcome with ⟨total, world⟩ | _
    case error => cases stepped
    obtain ⟨accepting, ⟨states, empty⟩, prunes⟩ := count_ok (call_answers system.states)
      ⟨rfl, by simp [System.world]⟩ tracks.accepting asked
    simp only [System.asked, Option.some.injEq] at stepped
    subst after
    have alive_same (i : ι) : System.alive ({ system with
        handle, states := world.states, queried := system.queried ++ world.calls } : System (machines lawful)) i =
          system.alive i := by
      simp only [System.alive, states]
    refine ⟨⟨accepting, tracks.counted, ?_, prunes.nodup tracks.distinct, ?_, tracks.fresh, tracks.known,
      ?_, ?_, ?_⟩, fun owed member alive => (tracks.exact owed member alive).trans (List.append_nil _).symm⟩
    · exact fun entry member => tracks.numbered entry (prunes.subset member)
    · intro entry member cleared
      rw [alive_same]
      exact tracks.flags entry (prunes.subset member) cleared
    · intro owed member alive
      rw [alive_same] at alive
      obtain ⟨entry, inside, same⟩ := tracks.stored owed member alive
      rw [← same] at alive
      exact ⟨entry, prunes.keeps inside (tracks.flag_of_alive inside alive) alive, same⟩
    · exact fun owed member alive => tracks.exact owed member (alive_same owed.1.listener ▸ alive)
    · intro made member
      exact (List.mem_append.mp member).elim (tracks.silent made) (empty made)

private theorem evolve_tracks {system : System (machines lawful)} {naive : Naive ι M} {listener : ι}
    {next : (lawful listener).State} (tracks : Tracks system naive)
    (permitted : ¬ ((lawful listener).alive next = true ∧ system.alive listener = false)) :
    Tracks { system with states := Function.update system.states listener next } naive := by
  have ages : Ages system.states (Function.update system.states listener next) := by
    intro i dead
    by_cases same : i = listener
    · subst same
      rw [Function.update_self]
      exact Bool.eq_false_iff.mpr fun revived => permitted ⟨revived, dead⟩
    · rwa [Function.update_of_ne same]
  refine ⟨tracks.accepting, tracks.counted, tracks.numbered, tracks.distinct, ?_, tracks.fresh, tracks.known,
    ?_, ?_, tracks.silent⟩
  · exact fun entry member cleared => ages _ (tracks.flags entry member cleared)
  · exact fun owed member alive => tracks.stored owed member (alive_before ages alive)
  · exact fun owed member alive => tracks.exact owed member (alive_before ages alive)

variable [VecGrowth]

/-- One operation keeps the simulation, and passes every registration that was
alive before it exactly the batches it sends. -/
theorem step_tracks {system after : System (machines lawful)} {naive : Naive ι M}
    {op : Op (machines lawful)} (tracks : Tracks system naive) (stepped : step op system = some after) :
    Tracks after (naive.step op) ∧ Exact naive op.batches system after := by
  have idle : Naive.step naive (.count : Op (machines lawful)) = naive := by
    simp [Naive.step, Op.batches]
  cases op with
  | listen listener => exact listen_tracks tracks stepped
  | listenRaw listener =>
    simp only [step, listenRaw_eq] at stepped
    exact listen_tracks tracks stepped
  | notify message =>
    simp only [step, notify_eq] at stepped
    exact sent_tracks tracks stepped
  | notifyMany messages => exact sent_tracks tracks stepped
  | count =>
    rw [idle]
    exact count_tracks tracks stepped
  | evolve listener next =>
    simp only [step] at stepped
    split at stepped
    · cases stepped
    next permitted =>
      cases stepped
      have unchanged : Naive.step naive (.evolve listener next : Op (machines lawful)) = naive := by
        simp [Naive.step, Op.batches]
      rw [unchanged]
      exact ⟨evolve_tracks tracks permitted, fun owed member alive =>
        (tracks.exact owed member alive).trans (List.append_nil _).symm⟩

omit [VecGrowth] in
theorem initial_tracks (shared : Bool) (states : (i : ι) → (lawful i).State) :
    Tracks (initial (.new shared) states) ⟨[], 0⟩ := by
  have empty : (Handle.new shared : Handle (Registration ι)).entries = [] := by cases shared <;> rfl
  refine ⟨?_, rfl, ?_, ?_, ?_, ?_, ?_, ?_, ?_, ?_⟩
  case refine_1 => cases shared <;> exact trivial
  all_goals simp [initial, empty]

/-- The run lemma: the simulation holds after any sequence of operations. -/
theorem run_tracks {ops : List (Op (machines lawful))} {first last : System (machines lawful)}
    {naive : Naive ι M} (tracks : Tracks first naive) (run : Transition.exec step ops first = some last) :
    Tracks last (ops.foldl Naive.step naive) := by
  induction ops generalizing first naive with
  | nil =>
    cases run
    exact tracks
  | cons op rest ih =>
    obtain ⟨middle, stepped, later⟩ := Option.bind_eq_some_iff.mp run
    exact ih (step_tracks tracks stepped).1 later

/-- No listener can block an operation: only reviving a dead one is excluded. -/
theorem step_enabled (op : Op (machines lawful)) {system : System (machines lawful)} {naive : Naive ι M}
    (tracks : Tracks system naive)
    (permitted : ∀ listener next, op = .evolve listener next →
      ¬ ((lawful listener).alive next = true ∧ system.alive listener = false)) :
    ∃ after, step op system = some after := by
  have total := call_total lawful
  have delivers (messages : List M) : ∃ after,
      system.sent (system.handle.notifyMany (call (machines lawful)) messages system.world) = some after := by
    obtain ⟨handle, last, sent⟩ := notifyMany_total total messages tracks.accepting system.world
    exact ⟨_, by rw [sent]; rfl⟩
  have registers (registration : Registration ι) : ∃ after, system.asked (system.registered + 1)
      (system.handle.listen (call (machines lawful)) registration system.world) = some after := by
    obtain ⟨handle, last, stored⟩ := listen_total total registration tracks.accepting system.world
    exact ⟨_, by rw [stored]; rfl⟩
  cases op with
  | listen listener => exact registers _
  | listenRaw listener =>
    simp only [step, listenRaw_eq]
    exact registers _
  | notify message =>
    simp only [step, notify_eq]
    exact delivers _
  | notifyMany messages => exact delivers _
  | count =>
    obtain ⟨handle, counted, last, asked⟩ := count_total total tracks.accepting system.world
    exact ⟨_, by rw [step, asked]; rfl⟩
  | evolve listener next =>
    simp only [step]
    rw [if_neg (permitted listener next rfl)]
    exact ⟨_, rfl⟩

/-- After any history, a registration whose listener is still alive has received
exactly the batches sent since it was made, once each and in order; the next
operation passes it exactly that operation's batches. All other calls made on a
listener are empty queries. -/
theorem live_registrations_exact (lawful : ι → LawfulMachine M) (shared : Bool)
    (states : (i : ι) → (lawful i).State) (ops : List (Op (machines lawful))) (system : System (machines lawful))
    (executed : Transition.exec step ops (initial (.new shared) states) = some system) :
    ∀ owed ∈ (Naive.run ops).registrations, system.alive owed.1.listener = true →
      callsTo owed.1 system.delivered = owed.2 ∧
      (∀ made ∈ system.queried, made.2 = []) ∧
      ∀ op after, step op system = some after →
        callsTo owed.1 after.delivered = owed.2 ++ op.batches ∧ ∀ made ∈ after.queried, made.2 = [] := by
  intro owed member alive
  have tracks := run_tracks (initial_tracks shared states) executed
  refine ⟨tracks.exact owed member alive, tracks.silent, ?_⟩
  intro op after stepped
  obtain ⟨next, delivers⟩ := step_tracks tracks stepped
  exact ⟨delivers owed member alive, next.silent⟩

/-- A log that ends when its owner drops it. -/
def logMachine : LawfulMachine Nat where
  State := Option (List Nat)
  receive log messages := (log.isSome, log.map (· ++ messages))
  dead_stays := by
    intro log first later dead
    cases log <;> simp_all
  query_inert := by
    intro log
    cases log <;> simp

/-- Four registrations, two of them of one log, fill the table. One log is dropped, so that
the fifth finds a place after a pass. -/
def logHistory : List (Op (machines fun _ : Nat => logMachine)) :=
  [.listen 0, .listen 1, .listenRaw 2, .listen 0, .notify 3, .evolve 1 none, .listen 4, .notifyMany [4, 5], .count]

omit [VecGrowth] in
theorem live_registrations_exact_log :
    ∃ system, Transition.exec (@step _ _ _ _ .usual) logHistory (initial (.new true) fun _ => some []) = some system ∧
      system.handle.entries.map (·.listener) = [⟨0, 0⟩, ⟨3, 0⟩, ⟨2, 2⟩, ⟨4, 4⟩] ∧
      callsTo ⟨0, 0⟩ system.delivered = [[3], [4, 5]] ∧ callsTo ⟨3, 0⟩ system.delivered = [[3], [4, 5]] ∧
      callsTo ⟨4, 4⟩ system.delivered = [[4, 5]] := by
  have run : ∃ system, Transition.exec (@step _ _ _ _ .usual) logHistory (initial (.new true) fun _ => some []) =
      some system ∧ system.handle.entries.map (·.listener) = [⟨0, 0⟩, ⟨3, 0⟩, ⟨2, 2⟩, ⟨4, 4⟩] ∧
        system.alive 0 = true ∧ system.alive 4 = true := ⟨_, rfl, rfl, rfl, rfl⟩
  obtain ⟨system, executed, entries, first, last⟩ := run
  have delivers := @live_registrations_exact _ _ _ .usual (fun _ => logMachine) true (fun _ => some []) logHistory system executed
  have owed : (Naive.run logHistory).registrations =
    [(⟨0, 0⟩, [[3], [4, 5]]), (⟨1, 1⟩, [[3], [4, 5]]), (⟨2, 2⟩, [[3], [4, 5]]), (⟨3, 0⟩, [[3], [4, 5]]),
      (⟨4, 4⟩, [[4, 5]])] := rfl
  rw [owed] at delivers
  exact ⟨system, executed, entries, (delivers (⟨0, 0⟩, [[3], [4, 5]]) (by simp) first).1,
    (delivers (⟨3, 0⟩, [[3], [4, 5]]) (by simp) first).1, (delivers (⟨4, 4⟩, [[4, 5]]) (by simp) last).1⟩

end Nosy.Broadcast
