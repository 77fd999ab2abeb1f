import Nosy.General.Sequenced
import Nosy.Proofs.StoreLock

/-! The calls of a `StoreLock` happen one after the other, in the order in which they
leave the mutex: each batch is in the state whole, unless the store itself panics. -/

namespace Nosy.StoreLock
open Transition

variable {τ T M : Type} [DecidableEq τ] [Inhabited T] {store : Store M T}
variable {action : Action τ T M} {state after : State τ T M}

/-- What a call does to the state, on its own. -/
def Runs (store : Store M T) : τ × Outcome T M → T → T → Prop
  | (_, .received messages), before, after => after = store.receive messages before
  | (_, .torn stored _ harm), before, after => after = harm (store.receive stored before)
  | (_, .took old), before, after => before = old ∧ after = default
  | (_, .held found left), before, after => before = found ∧ after = left
  | (_, .refused _), _, _ => False

omit [DecidableEq τ] in
/-- A call that has the world to itself does to the state what it does here, through a
`StoreLockListener` as through a `Weak` reference. -/
theorem listener_runs {stores : Nat → Store M T} {notifyMany : Nat → List M → EStateM Failure (World M T) Unit}
    {id : Nat} {messages : List M} {world last : World M T} {listener : Listener M} (thread : τ)
    (stored : listener = .storeLock id ∨ listener = .weak id)
    (received : Listener.receive stores notifyMany listener messages world = .ok true last) :
    Runs (stores id) (thread, .received messages) (world.stores id).contents (last.stores id).contents := by
  cases messages with
  | nil =>
    have same : last = world := by
      rcases stored with rfl | rfl
      · simp only [Listener.receive, List.isEmpty_nil, if_true] at received
        split at received <;> cases received
        rfl
      · simp only [Listener.receive, List.isEmpty_nil, if_true] at received
        injection received with _ same
        exact same.symm
    rw [same]
    exact ((stores id).empty _).symm
  | cons message rest =>
    have written : last = world.record (stores id) id (message :: rest) := by
      rcases stored with rfl | rfl
      all_goals
        simp only [Listener.receive, List.isEmpty_cons, Bool.false_eq_true, if_false] at received
        split at received <;> cases received
        rfl
    rw [written]
    simp [Runs, World.record]

/-- What the thread with the mutex has done to the state so far. -/
def Phase.Since (store : Store M T) (base value : T) : Phase T M → Prop
  | .storing _ stored _ => value = store.receive stored base
  | .unwinding _ stored _ harm => value = harm (store.receive stored base)
  | .taking => value = base
  | .replaced old => base = old ∧ value = default
  | .holding found => base = found
  | _ => False

/-- The state is what the calls that left the mutex made of it, and who has the mutex. -/
def State.Serial (store : Store M T) (start : T) (state : State τ T M) : Prop :=
  ∀ value, state.shared.value = some value →
    (state.mutex.writer = none → Sequenced (Runs store) start state.order value) ∧
    ∀ thread, state.mutex.writer = some thread →
      ∃ base, Sequenced (Runs store) start state.order base ∧ (state.phase thread).Since store base value

omit [DecidableEq τ] in
private theorem start_since (request : Request M) (value : T) : (request.start value).Since store value value := by
  cases request with
  | receive => exact (store.empty value).symm
  | take => rfl
  | lock => rfl

omit [DecidableEq τ] in
private theorem work_since {thread : τ} {phase next : Phase T M} {base value left : T}
    (work : Work store thread action phase value next left) (since : phase.Since store base value) :
    next.Since store base left := by
  cases work with
  | store =>
    simp only [Phase.Since] at since ⊢
    rw [since, store.append]
  | panic =>
    simp only [Phase.Since] at since ⊢
    rw [since]
  | replace => exact ⟨since.symm, rfl⟩
  | change => exact since

omit [DecidableEq τ] in
private theorem outcome_runs {thread : τ} {phase : Phase T M} {base value : T} {handle : Handle} {outcome : Outcome T M}
    (ends : phase.outcome value = some (handle, outcome)) (since : phase.Since store base value) :
    Runs store (thread, outcome) base value := by
  unfold Phase.outcome at ends
  split at ends <;> cases ends
  · exact since
  · exact since
  · exact since
  · exact ⟨since, rfl⟩

omit [DecidableEq τ] in
/-- What is done without the mutex leaves the state alone, or destroys it. -/
private theorem State.Located.serial {start : T} (located : state.Located) (serial : state.Serial store start)
    (value : ∀ value, after.shared.value = some value → state.shared.value = some value)
    (mutex : after.mutex = state.mutex) (order : after.order = state.order)
    (inside : ∀ thread, (state.phase thread).access = some .exclusive → after.phase thread = state.phase thread) :
    after.Serial store start := by
  intro current kept
  obtain ⟨free, taken⟩ := serial current (value current kept)
  rw [mutex, order]
  refine ⟨free, ?_⟩
  intro thread writing
  rw [inside thread ((located.mutex.writer thread).mp writing)]
  exact taken thread writing

omit [Inhabited T] in
private theorem inside_elsewhere {thread : τ} {next : Phase T M} (outside : (state.phase thread).access = none)
    (other : τ)
    (inside : (state.phase other).access = some .exclusive) :
    Function.update state.phase thread next other = state.phase other := by
  apply Function.update_of_ne
  rintro rfl
  rw [outside] at inside
  cases inside

omit [Inhabited T] in
private theorem release_value {counted : Counted T} {value : T} (kept : counted.release.value = some value) :
    counted.value = some value := by
  unfold Counted.release at kept
  dsimp only at kept
  split at kept
  · cases kept
  · exact kept

theorem step_serial {start : T} (located : state.Located) (serial : state.Serial store start)
    (stepped : step store action state = some after) : after.Serial store start := by
  cases step_cases stepped with
  | called idle | borrowed idle =>
    refine located.serial serial (fun _ kept => kept) rfl rfl (inside_elsewhere ?_)
    rw [idle]
    rfl
  | refused reached | probed reached =>
    refine located.serial serial (fun _ kept => kept) rfl rfl (inside_elsewhere ?_)
    rw [reached]
    rfl
  | upgraded reached upgraded =>
    obtain ⟨_, rfl⟩ := Counted.upgrade_some upgraded
    refine located.serial serial (fun _ kept => kept) rfl rfl (inside_elsewhere ?_)
    rw [reached]
    rfl
  | @left thread handle outcome leaving =>
    have outside : (state.phase thread).access = none := by
      rw [leaving]
      rfl
    cases handle with
    | listener => exact located.serial serial (fun _ => release_value) rfl rfl (inside_elsewhere outside)
    | owner => exact located.serial serial (fun _ kept => kept) rfl rfl (inside_elsewhere outside)
  | dropped => exact located.serial serial (fun _ => release_value) rfl rfl fun _ _ => rfl
  | @acquired thread request value mutex reached kept acquired =>
    obtain ⟨nobody, _, rfl⟩ := SharedLock.write_some acquired
    intro current same
    obtain rfl : value = current := Option.some.inj (kept.symm.trans same)
    constructor
    · intro free
      cases free
    · intro other writing
      cases writing
      refine ⟨value, (serial value kept).1 nobody, ?_⟩
      simp only [State.move, Function.update_self]
      exact start_since request value
  | @worked action thread value left phase kept work =>
    have writing := (located.mutex.writer thread).mpr (work_same work).1
    intro current same
    obtain rfl : left = current := Option.some.inj same
    constructor
    · intro free
      cases writing.symm.trans free
    · intro other holds
      obtain rfl : thread = other := Option.some.inj (writing.symm.trans holds)
      obtain ⟨base, run, since⟩ := (serial value kept).2 thread writing
      refine ⟨base, run, ?_⟩
      simp only [State.move, Function.update_self]
      exact work_since work since
  | @unlocked thread value handle outcome kept ends =>
    have writing := (located.mutex.writer thread).mpr (outcome_same ends).1
    obtain ⟨base, run, since⟩ := (serial value kept).2 thread writing
    intro current same
    obtain rfl : value = current := Option.some.inj (kept.symm.trans same)
    constructor
    · intro _
      exact run.snoc (outcome_runs ends since)
    · intro other holds
      simp [State.move, SharedLock.release, writing] at holds

def Outcome.messages : Outcome T M → Option (List M)
  | .received messages | .refused messages => some messages
  | .torn stored unstored _ => some (stored ++ unstored)
  | .took _ | .held .. => none

/-- The call needed the mutex, or would not have been any different with it. -/
def Outcome.effective : Outcome T M → Bool
  | .received messages => !messages.isEmpty
  | .refused _ => false
  | .torn .. | .took _ | .held .. => true

/-- The call that a thread is in, by its messages. -/
def Phase.call : Phase T M → Option (Option (List M))
  | .idle => none
  | .upgrading _ messages => some (some messages)
  | .locking request => some request.messages
  | .storing _ stored rest | .unwinding _ stored rest _ => some (some (stored ++ rest))
  | .taking | .replaced _ | .holding _ => some none
  | .leaving _ outcome => some outcome.messages

/-- The call has done its work and not returned. -/
def Phase.pending : Phase T M → List (Outcome T M)
  | .leaving _ outcome => [outcome].filter Outcome.effective
  | _ => []

/-- What a history says of one thread. -/
def own {α : Type} (thread : τ) (history : List (τ × α)) : List α :=
  (history.filter fun entry => entry.1 = thread).map Prod.snd

/-- Each call of a thread is answered once, and does its work once, in the thread's order. -/
structure Balanced (state : State τ T M) (thread : τ) : Prop where
  answered : own thread state.calls = (own thread state.answers).map Outcome.messages ++ (state.phase thread).call.toList
  worked : (own thread state.order).filter Outcome.effective =
    (own thread state.answers).filter Outcome.effective ++ (state.phase thread).pending

section
variable {α : Type} {thread other : τ} {history : List (τ × α)} {entries : List α}

omit [Inhabited T] in
private theorem own_here : own thread (history ++ entries.map (thread, ·)) = own thread history ++ entries := by
  simp [own, List.filter_map, Function.comp_def]

omit [Inhabited T] in
private theorem own_elsewhere (different : other ≠ thread) :
    own other (history ++ entries.map (thread, ·)) = own other history := by
  simp [own, Ne.symm different]

end

omit [Inhabited T] in
private theorem balanced_grown {thread : τ} {next : Phase T M} {calls : List (Option (List M))}
    {order answers : List (Outcome T M)}
    (balanced : ∀ other, Balanced state other) (called : after.calls = state.calls ++ calls.map (thread, ·))
    (ordered : after.order = state.order ++ order.map (thread, ·))
    (returned : after.answers = state.answers ++ answers.map (thread, ·))
    (phase : after.phase = Function.update state.phase thread next)
    (call : (state.phase thread).call.toList ++ calls = answers.map Outcome.messages ++ next.call.toList)
    (work : (state.phase thread).pending ++ order.filter Outcome.effective =
      answers.filter Outcome.effective ++ next.pending) : ∀ other, Balanced after other := by
  intro other
  obtain ⟨answered, worked⟩ := balanced other
  by_cases here : other = thread
  · subst here
    constructor
    · rw [called, returned, phase, own_here, own_here, answered, Function.update_self, List.append_assoc, call]
      simp
    · rw [ordered, returned, phase, own_here, own_here, List.filter_append, worked, Function.update_self,
        List.append_assoc, work]
      simp
  · constructor
    · rw [called, returned, phase, own_elsewhere here, own_elsewhere here, Function.update_of_ne here]
      exact answered
    · rw [ordered, returned, phase, own_elsewhere here, own_elsewhere here, Function.update_of_ne here]
      exact worked

omit [DecidableEq τ] [Inhabited T] in
theorem start_call (request : Request M) (value : T) :
    (request.start value).call = some request.messages ∧ (request.start value).pending = [] := by
  cases request <;> exact ⟨rfl, rfl⟩

omit [DecidableEq τ] in
theorem work_call {thread : τ} {phase next : Phase T M} {value left : T}
    (work : Work store thread action phase value next left) :
    next.call = phase.call ∧ next.pending = [] ∧ phase.pending = [] := by
  cases work with
  | store => exact ⟨by simp [Phase.call], rfl, rfl⟩
  | panic | replace | change => exact ⟨rfl, rfl, rfl⟩

omit [DecidableEq τ] [Inhabited T] in
theorem outcome_call {phase : Phase T M} {value : T} {handle : Handle} {outcome : Outcome T M}
    (ends : phase.outcome value = some (handle, outcome)) :
    phase.call = some outcome.messages ∧ phase.pending = [] := by
  unfold Phase.outcome at ends
  split at ends <;> cases ends
  · exact ⟨by simp [Phase.call, Outcome.messages], rfl⟩
  · exact ⟨rfl, rfl⟩
  · exact ⟨rfl, rfl⟩
  · exact ⟨rfl, rfl⟩

theorem step_balanced (balanced : ∀ thread, Balanced state thread) (stepped : step store action state = some after) :
    ∀ thread, Balanced after thread := by
  cases step_cases stepped with
  | @called thread link messages idle =>
    refine @balanced_grown _ _ _ _ state _ thread _ [some messages] [] [] balanced rfl
      (List.append_nil _).symm (List.append_nil _).symm rfl ?_ ?_
    · rw [idle]
      rfl
    · rw [idle]
      rfl
  | @refused thread link messages reached =>
    refine @balanced_grown _ _ _ _ state _ thread _ [] [] [.refused messages] balanced
      (List.append_nil _).symm (List.append_nil _).symm rfl rfl ?_ ?_
    · rw [reached]
      rfl
    · rw [reached]
      rfl
  | @probed thread shared reached =>
    refine @balanced_grown _ _ _ _ state _ thread _ [] [] [.received []] balanced
      (List.append_nil _).symm (List.append_nil _).symm rfl rfl ?_ ?_
    · rw [reached]
      rfl
    · rw [reached]
      rfl
  | @upgraded thread link messages shared phase reached upgraded next =>
    refine @balanced_grown _ _ _ _ state _ thread _ [] [] [] balanced
      (List.append_nil _).symm (List.append_nil _).symm (List.append_nil _).symm rfl ?_ ?_
    · rw [reached]
      rcases next with ⟨rfl, rfl, rfl⟩ | ⟨_, rfl⟩ <;> rfl
    · rw [reached]
      rcases next with ⟨rfl, rfl, rfl⟩ | ⟨_, rfl⟩ <;> rfl
  | @borrowed thread request idle =>
    refine @balanced_grown _ _ _ _ state _ thread _ [request.messages] [] [] balanced rfl
      (List.append_nil _).symm (List.append_nil _).symm rfl ?_ ?_
    · rw [idle]
      rfl
    · rw [idle]
      rfl
  | @acquired thread request value mutex reached =>
    obtain ⟨call, pending⟩ := start_call request value
    refine @balanced_grown _ _ _ _ state _ thread _ [] [] [] balanced
      (List.append_nil _).symm (List.append_nil _).symm (List.append_nil _).symm rfl ?_ ?_
    · rw [reached, call]
      rfl
    · rw [reached, pending]
      rfl
  | @worked action thread value left phase kept work =>
    obtain ⟨call, pending, before⟩ := work_call work
    refine @balanced_grown _ _ _ _ state _ thread _ [] [] [] balanced
      (List.append_nil _).symm (List.append_nil _).symm (List.append_nil _).symm rfl ?_ ?_
    · rw [call]
      exact List.append_nil _
    · rw [pending, before]
      rfl
  | @unlocked thread value handle outcome kept ends =>
    obtain ⟨call, pending⟩ := outcome_call ends
    refine @balanced_grown _ _ _ _ state _ thread _ [] [outcome] [] balanced
      (List.append_nil _).symm rfl (List.append_nil _).symm rfl ?_ ?_
    · rw [call]
      rfl
    · rw [pending]
      rfl
  | @left thread handle outcome leaving =>
    have grown : ∀ after : State τ T M, after.calls = state.calls → after.order = state.order →
        after.answers = state.answers ++ [(thread, outcome)] → after.phase = Function.update state.phase thread .idle →
          ∀ other, Balanced after other := by
      intro after calls order answers phase
      refine @balanced_grown _ _ _ _ state _ thread _ [] [] [outcome] balanced
        (calls.trans (List.append_nil _).symm) (order.trans (List.append_nil _).symm) answers phase ?_ ?_
      · rw [leaving]
        rfl
      · rw [leaving]
        simp [Phase.pending]
    cases handle with
    | listener => exact grown _ rfl rfl rfl rfl
    | owner => exact grown _ rfl rfl rfl rfl
  | dropped => exact fun other => ⟨(balanced other).answered, (balanced other).worked⟩

/-- The order of the calls is only ever added to. -/
theorem step_order (stepped : step store action state = some after) : state.order <+: after.order := by
  cases step_cases stepped with
  | called | refused | probed | upgraded | borrowed | acquired | worked | dropped => exact List.prefix_rfl
  | unlocked => exact List.prefix_append _ _
  | @left thread handle outcome leaving => cases handle <;> exact List.prefix_rfl

omit [Inhabited T] in
private theorem initial_balanced (start : T) (thread : τ) : Balanced (initial start : State τ T M) thread := ⟨rfl, rfl⟩

omit [DecidableEq τ] in
private theorem initial_serial (start : T) : (initial start : State τ T M).Serial store start := by
  intro value kept
  cases kept
  constructor
  · intro _
    exact .nil
  · intro thread writing
    cases writing

theorem run_serial {allowed : Action τ T M → State τ T M → Prop} {start : T}
    (run : Reaches (step store) allowed (initial start) state) : state.Serial store start := by
  induction run with
  | refl => exact initial_serial start
  | tail before move ih =>
    obtain ⟨action, _, stepped⟩ := move
    exact step_serial (run_located before) ih stepped

theorem run_balanced {allowed : Action τ T M → State τ T M → Prop} {start : T}
    (run : Reaches (step store) allowed (initial start) state) : ∀ thread, Balanced state thread :=
  run.invariant (fun _ _ _ _ stepped balanced => step_balanced balanced stepped) (initial_balanced start)

/-- Between any number of threads every call does its work once, as if it were alone,
in an order in which each thread's calls follow one another. -/
theorem calls_serialize {start : T} (run : Reaches (step store) Free (initial start) state) :
    (∀ value, state.shared.value = some value → state.mutex.writer = none →
      Sequenced (Runs store) start state.order value) ∧
    (∀ thread, Balanced state thread) ∧
    ∀ later, Reaches (step store) Free state later → state.order <+: later.order := by
  refine ⟨?_, ?_, ?_⟩
  · intro value kept free
    exact (run_serial run value kept).1 free
  · exact run_balanced run
  · intro later onward
    induction onward with
    | refl => exact List.prefix_rfl
    | tail _ move ih =>
      obtain ⟨action, _, stepped⟩ := move
      exact ih.trans (step_order stepped)

/-- Two listeners' calls cross, and the owner takes what the first of them has stored. -/
def crossing : List (Action Nat (List Nat) Nat) :=
  [.call 1 .listener [1, 2], .upgrade 1, .acquire 1, .store 1, .call 2 .weak [3], .upgrade 2, .borrow 0 .take, .store 1,
    .unlock 1, .acquire 0, .leave 1, .replace 0, .unlock 0, .acquire 2, .leave 0, .store 2, .unlock 2, .leave 2]

theorem calls_serialize_crossing : ∃ state : State Nat (List Nat) Nat,
    exec (step (Store.log Nat)) crossing (initial []) = some state ∧ state.shared.value = some [3] ∧
      Sequenced (Runs (Store.log Nat)) [] state.order [3] ∧ Balanced state 1 := by
  have run : ∃ state : State Nat (List Nat) Nat, exec (step (Store.log Nat)) crossing (initial []) = some state ∧
      state.shared.value = some [3] ∧ state.mutex.writer = none := ⟨_, rfl, rfl, rfl⟩
  obtain ⟨state, executed, kept, free⟩ := run
  obtain ⟨serial, balanced, _⟩ := calls_serialize (exec_reaches executed)
  exact ⟨state, executed, kept, serial [3] kept free, balanced 1⟩

section Log
variable {log : State τ (List M) M} {grown : State τ (List M) M} {event : Action τ (List M) M}

/-- A `Log` gives out no guard; where `M::clone` panics, what was pushed before stays. -/
def Logs : Action τ (List M) M → State τ (List M) M → Prop
  | .borrow _ request, _ => request ≠ .lock
  | .panic _ harm, _ => harm = id
  | _, _ => True

/-- What the calls of `drain` have returned, or are about to. -/
def drained (order : List (τ × Outcome (List M) M)) : List M :=
  order.flatMap fun entry =>
    match entry.2 with
    | .took old => old
    | _ => []

/-- The batches, and the parts of those whose `receive` panicked. -/
def arrived (order : List (τ × Outcome (List M) M)) : List M :=
  order.flatMap fun entry =>
    match entry.2 with
    | .received messages => messages
    | .torn stored _ _ => stored
    | _ => []

def Phase.Plain : Phase (List M) M → Prop
  | .unwinding _ _ _ harm => harm = id
  | .locking .lock | .holding _ => False
  | _ => True

def Outcome.Plain : Outcome (List M) M → Prop
  | .torn _ _ harm => harm = id
  | .held .. => False
  | _ => True

omit [DecidableEq τ] in
private theorem drained_arrived {order : List (τ × Outcome (List M) M)} {start contents : List M}
    (run : Sequenced (Runs (Store.log M)) start order contents) (plain : ∀ entry ∈ order, entry.2.Plain) :
    drained order ++ contents = start ++ arrived order := by
  apply run.invariant (fun order contents => drained order ++ contents = start ++ arrived order)
  · exact (List.append_nil start).symm
  · intro earlier entry later before after split runs same
    have one := plain entry (by simp [split])
    obtain ⟨thread, outcome⟩ := entry
    cases outcome with
    | received messages =>
      obtain rfl : after = before ++ messages := runs
      simp [drained, arrived] at same ⊢
      rw [← List.append_assoc, same, List.append_assoc]
    | torn stored unstored harm =>
      obtain rfl : harm = id := one
      obtain rfl : after = before ++ stored := runs
      simp [drained, arrived] at same ⊢
      rw [← List.append_assoc, same, List.append_assoc]
    | took old =>
      obtain ⟨rfl, rfl⟩ := runs
      have nothing : (default : List M) = [] := rfl
      simpa [drained, arrived, nothing] using same
    | held => exact one.elim
    | refused => exact runs.elim

theorem step_plain (permitted : Logs event log) (phases : ∀ thread, (log.phase thread).Plain)
    (stepped : step (Store.log M) event log = some grown) : ∀ thread, (grown.phase thread).Plain := by
  have moved {thread : τ} {next : Phase (List M) M} (plain : next.Plain) (other : τ) :
      (Function.update log.phase thread next other).Plain := by
    by_cases here : other = thread
    · rw [here, Function.update_self]
      exact plain
    · rw [Function.update_of_ne here]
      exact phases other
  cases step_cases stepped with
  | called | refused | probed => exact moved trivial
  | upgraded _ _ next =>
    rcases next with ⟨_, _, rfl⟩ | ⟨_, rfl⟩
    · exact moved trivial
    · exact moved trivial
  | @borrowed thread request =>
    cases request with
    | lock => exact absurd rfl permitted
    | receive | take => exact moved trivial
  | @acquired thread request value mutex reached =>
    have plain := phases thread
    rw [reached] at plain
    cases request with
    | lock => exact plain.elim
    | receive | take => exact moved trivial
  | @worked _ thread value left next kept work =>
    have plain := phases thread
    generalize log.phase thread = phase at work plain
    cases work with
    | store | replace => exact moved trivial
    | panic => exact moved permitted
    | change => exact plain.elim
  | unlocked => exact moved trivial
  | @left thread handle outcome leaving => cases handle <;> exact moved trivial
  | dropped => exact phases

omit [DecidableEq τ] in
private theorem outcome_plain {phase : Phase (List M) M} {value : List M} {handle : Handle}
    {outcome : Outcome (List M) M}
    (plain : phase.Plain) (ends : phase.outcome value = some (handle, outcome)) : outcome.Plain := by
  unfold Phase.outcome at ends
  split at ends <;> cases ends
  · trivial
  · exact plain
  · trivial
  · exact plain

theorem step_plainly (phases : ∀ thread, (log.phase thread).Plain) (order : ∀ entry ∈ log.order, entry.2.Plain)
    (stepped : step (Store.log M) event log = some grown) : ∀ entry ∈ grown.order, entry.2.Plain := by
  cases step_cases stepped with
  | called | refused | probed | upgraded | borrowed | acquired | worked | dropped => exact order
  | @unlocked thread value handle outcome kept ends =>
    intro entry member
    rcases List.mem_append.mp member with before | here
    · exact order entry before
    · obtain rfl := List.mem_singleton.mp here
      exact outcome_plain (phases thread) ends
  | @left thread handle outcome leaving => cases handle <;> exact order

theorem run_plain {start : List M} (run : Reaches (step (Store.log M)) Logs (initial start) log) :
    (∀ thread, (log.phase thread).Plain) ∧ ∀ entry ∈ log.order, entry.2.Plain := by
  induction run with
  | refl =>
    constructor
    · intro thread
      trivial
    · intro entry member
      cases member
  | tail _ move ih =>
    obtain ⟨action, permitted, stepped⟩ := move
    exact ⟨step_plain permitted ih.1 stepped, step_plainly ih.1 ih.2 stepped⟩

theorem run_conserves (run : Reaches (step (Store.log M)) Logs (initial []) log) {contents : List M}
    (kept : log.shared.value = some contents) (free : log.mutex.writer = none) :
    drained log.order ++ contents = arrived log.order := by
  have serial := (run_serial run contents kept).1 free
  simpa using drained_arrived serial (run_plain run).2

/-- A `Log` loses no message, makes none up and tears no batch: what was drained so far
and what it holds are the batches, in the order in which they were received. -/
theorem log_conserves (run : Reaches (step (Store.log M)) Logs (initial []) log) :
    (∀ contents, log.shared.value = some contents → log.mutex.writer = none →
      drained log.order ++ contents = arrived log.order) ∧ ∀ thread, Balanced log thread :=
  ⟨fun _ kept free => run_conserves run kept free, run_balanced run⟩

end Log

theorem log_conserves_crossing : ∃ log : State Nat (List Nat) Nat,
    exec (step (Store.log Nat)) crossing (initial []) = some log ∧
      drained log.order = [1, 2] ∧ drained log.order ++ [3] = arrived log.order := by
  have run : ∃ log : State Nat (List Nat) Nat, exec (step (Store.log Nat)) crossing (initial []) = some log ∧
      log.shared.value = some [3] ∧ log.mutex.writer = none ∧ drained log.order = [1, 2] := ⟨_, rfl, rfl, rfl, rfl⟩
  obtain ⟨log, executed, kept, free, taken⟩ := run
  have plain : ∀ action ∈ crossing, ∀ log : State Nat (List Nat) Nat, Logs action log := by simp [crossing, Logs]
  exact ⟨log, executed, taken, (log_conserves (exec_allowed executed plain)).1 [3] kept free⟩

end Nosy.StoreLock
