import Nosy.NotifiedLogs
import Nosy.Proofs.SharedNotifierCalls
import Nosy.Proofs.SharedNotifierDelivery
import Nosy.Proofs.StoreLockLifetime
import Nosy.Proofs.StoreLockSerial

/-! A notifier and the logs that listen to it, all in use at once: what one step does to
both, and what arrives in the logs. -/

namespace Nosy.NotifiedLogs
open SharedNotifier (Record Ringing Rings gather turn stored denied)
open StoreLock (own)
open Transition (Reaches Free exec)

variable {M : Type} {log after : Log M} {event : StoreLock.Action Caller (List M) M} {id thread : Nat}

/-- The batch, if the call is one of this log. -/
def heading (id : Nat) (call : Option (Registration Nat × List M)) : Option (List M) :=
  (call.filter fun call => call.1.listener = id).map (·.2)

@[simp] theorem heading_none : heading id (none : Option (Registration Nat × List M)) = none := rfl

@[simp] theorem heading_some (registration : Registration Nat) (messages : List M) :
    heading id (some (registration, messages)) = if registration.listener = id then some messages else none := by
  by_cases here : registration.listener = id <;> simp [heading, Option.filter, here]

private theorem brought_grown {heard : List SharedNotifier.Answer} {caller other : Nat}
    {before after : SharedNotifier.State Nat M}
    (rings : Rings heard caller before after) : brought id other after.history =
      brought id other before.history ++ if other = caller then (heading id (after.within caller)).toList else [] := by
  rw [brought, brought, rings.calls]
  by_cases own : other = caller
  · generalize after.within caller = call
    cases call with
    | none => simp [own]
    | some call =>
      obtain ⟨registration, messages⟩ := call
      by_cases here : registration.listener = id <;> simp [own, here]
  · simp [own]

/-- The caller that returns. -/
def returner (event : StoreLock.Action Caller (List M) M) (log : Log M) : Option Caller :=
  (returning event log).map Prod.fst

private theorem silent_call {caller : Caller} {next : StoreLock.Phase (List M) M}
    (moved : after.phase = Function.update log.phase caller next) (silent : returner event log = none)
    (same : next.call = (log.phase caller).call) : (after.phase (.inl thread)).call =
      if returner event log = some (.inl thread) then none else (log.phase (.inl thread)).call := by
  rw [moved, silent, if_neg (Option.some_ne_none _).symm]
  by_cases here : .inl thread = caller
  · subst here
    rw [Function.update_self, same]
  · rw [Function.update_of_ne here]

private theorem elsewhere_call {caller : Nat} {next : StoreLock.Phase (List M) M}
    (moved : after.phase = Function.update log.phase (.inr caller) next) (silent : returner event log = none) :
    (after.phase (.inl thread)).call =
      if returner event log = some (.inl thread) then none else (log.phase (.inl thread)).call := by
  rw [moved, silent, Function.update_of_ne Sum.inl_ne_inr]
  rfl

private theorem returned_call {caller : Caller} (moved : after.phase = Function.update log.phase caller .idle)
    (returns : returner event log = some caller) : (after.phase (.inl thread)).call =
      if returner event log = some (.inl thread) then none else (log.phase (.inl thread)).call := by
  rw [moved, returns]
  by_cases here : .inl thread = caller
  · subst here
    simp [StoreLock.Phase.call]
  · have different : caller ≠ .inl thread := Ne.symm here
    simp [here, different]

theorem upgrade_silent {caller : Caller} {link : StoreLock.Link} {messages : List M} {shared : Counted (List M)}
    {phase : StoreLock.Phase (List M) M} (reached : log.phase caller = .upgrading link messages)
    (upgraded : log.shared.upgrade = some shared)
    (next : link = .listener ∧ messages = [] ∧ phase = .leaving .listener (.received []) ∨
      messages ≠ [] ∧ phase = .locking (.receive .listener messages)) : returner (.upgrade caller) log = none := by
  rcases next with ⟨rfl, rfl, _⟩ | ⟨some_, _⟩
  · simp [returner, returning, reached, upgraded]
  · obtain ⟨message, rest, rfl⟩ := List.exists_cons_of_ne_nil some_
    simp [returner, returning, reached, upgraded]

private theorem own_step (stepped : StoreLock.step (Store.log M) event log = some after)
    (admitted : admits event = true)
    (thread : Nat) :
    own (.inl thread) after.calls = own (.inl thread) log.calls ∧
      (after.phase (.inl thread)).call =
        if returner event log = some (.inl thread) then none else (log.phase (.inl thread)).call := by
  cases StoreLock.step_cases stepped with
  | @called caller link messages idle =>
    cases caller with
    | inl => cases admitted
    | inr => exact ⟨by simp [own, StoreLock.State.begin], elsewhere_call rfl rfl⟩
  | @borrowed caller request idle =>
    cases caller with
    | inl => cases admitted
    | inr => exact ⟨by simp [own, StoreLock.State.begin], elsewhere_call rfl rfl⟩
  | @refused caller link messages reached gone =>
    have returns : returner (.upgrade caller) log = some caller := by simp [returner, returning, reached, gone]
    exact ⟨rfl, returned_call rfl returns⟩
  | @probed caller shared reached upgraded =>
    have returns : returner (.upgrade caller) log = some caller := by simp [returner, returning, reached, upgraded]
    exact ⟨rfl, returned_call rfl returns⟩
  | @upgraded caller link messages shared phase reached upgraded next =>
    refine ⟨rfl, silent_call rfl (upgrade_silent reached upgraded next) ?_⟩
    rw [reached]
    rcases next with ⟨_, rfl, rfl⟩ | ⟨_, rfl⟩ <;> rfl
  | @acquired caller request value mutex reached =>
    refine ⟨rfl, silent_call rfl rfl ?_⟩
    rw [reached, (StoreLock.start_call request value).1]
    rfl
  | @worked event caller value left phase kept work =>
    refine ⟨rfl, silent_call rfl ?_ (StoreLock.work_call work).1⟩
    generalize log.phase caller = phase at work
    cases work <;> rfl
  | unlocked kept ends => exact ⟨rfl, silent_call rfl rfl (StoreLock.outcome_call ends).1.symm⟩
  | @left caller handle outcome leaving =>
    cases handle <;> exact ⟨rfl, returned_call rfl rfl⟩
  | dropped => exact ⟨rfl, rfl⟩

private theorem returner_call {caller : Caller} {alive : Bool}
    (stepped : StoreLock.step (Store.log M) event log = some after)
    (returns : returning event log = some (caller, alive)) :
    (log.phase caller).call ≠ none ∧ (alive = false → log.shared.upgrade = none) := by
  cases StoreLock.step_cases stepped with
  | called | borrowed | acquired | unlocked | dropped => cases returns
  | @worked _ caller value left phase kept work =>
    generalize log.phase caller = before at work
    cases work <;> cases returns
  | @refused thread link messages reached gone =>
    obtain rfl : thread = caller := by simp_all [returning]
    exact ⟨by simp [reached, StoreLock.Phase.call], fun _ => gone⟩
  | @probed thread shared reached upgraded =>
    obtain ⟨rfl, rfl⟩ : thread = caller ∧ true = alive := by simp_all [returning]
    exact ⟨by simp [reached, StoreLock.Phase.call], by simp⟩
  | @upgraded thread link messages shared phase reached upgraded next =>
    have silent : returner (.upgrade thread) log = none := upgrade_silent reached upgraded next
    simp [returner, returns] at silent
  | @left thread handle outcome leaving =>
    cases returns
    exact ⟨by simp [leaving, StoreLock.Phase.call], by simp⟩

/-- No clone has panicked in this call. -/
def Phase.Whole : StoreLock.Phase (List M) M → Prop
  | .unwinding .. | .leaving _ (.torn ..) => False
  | _ => True

def Outcome.Whole : StoreLock.Outcome (List M) M → Prop
  | .torn .. => False
  | _ => True

def Whole (log : Log M) : Prop :=
  (∀ caller, Phase.Whole (log.phase caller)) ∧ ∀ entry ∈ log.answers, Outcome.Whole entry.2

def Calm : StoreLock.Action Caller (List M) M → Log M → Prop
  | .panic .., _ => False
  | .borrow _ request, _ => request ≠ .lock
  | _, _ => True

theorem step_whole (whole : Whole log) (calm : Calm event log)
    (stepped : StoreLock.step (Store.log M) event log = some after) : Whole after := by
  have moved {caller : Caller} {next : StoreLock.Phase (List M) M} (fine : Phase.Whole next) (other : Caller) :
      Phase.Whole (Function.update log.phase caller next other) := by
    by_cases here : other = caller
    · rw [here, Function.update_self]
      exact fine
    · rw [Function.update_of_ne here]
      exact whole.1 other
  have answered {caller : Caller} {outcome : StoreLock.Outcome (List M) M} (fine : Outcome.Whole outcome) :
      ∀ entry ∈ log.answers ++ [(caller, outcome)], Outcome.Whole entry.2 := by
    intro entry member
    rcases List.mem_append.mp member with before | here
    · exact whole.2 entry before
    · obtain rfl := List.mem_singleton.mp here
      exact fine
  cases StoreLock.step_cases stepped with
  | called | borrowed => exact ⟨moved trivial, whole.2⟩
  | refused | probed => exact ⟨moved trivial, answered trivial⟩
  | upgraded _ _ next => rcases next with ⟨_, _, rfl⟩ | ⟨_, rfl⟩ <;> exact ⟨moved trivial, whole.2⟩
  | @acquired caller request => cases request <;> exact ⟨moved trivial, whole.2⟩
  | @worked _ caller value left next kept work =>
    generalize log.phase caller = phase at work
    cases work with
    | panic => exact calm.elim
    | store | replace | change => exact ⟨moved trivial, whole.2⟩
  | @unlocked caller value handle outcome kept ends =>
    refine ⟨moved ?_, whole.2⟩
    have fine := whole.1 caller
    unfold StoreLock.Phase.outcome at ends
    split at ends <;> cases ends
    · trivial
    next reached =>
      rw [reached] at fine
      exact fine.elim
    · trivial
    · trivial
  | @left caller handle outcome leaving =>
    have fine := whole.1 caller
    rw [leaving] at fine
    have unbroken : Outcome.Whole outcome := by cases outcome <;> trivial
    cases handle <;> exact ⟨moved trivial, answered unbroken⟩
  | dropped => exact whole

private theorem calm_logs (event : StoreLock.Action Caller (List M) M) (log : Log M) (calm : Calm event log) :
    StoreLock.Logs event log := by
  cases event with
  | panic => exact calm.elim
  | borrow => exact calm
  | call | upgrade | acquire | store | replace | change | unlock | leave | drop => trivial

theorem run_whole (run : Reaches (StoreLock.step (Store.log M)) Calm (StoreLock.initial []) log) : Whole log := by
  induction run with
  | refl =>
    constructor
    · intro caller
      trivial
    · intro entry member
      cases member
  | tail _ move ih =>
    obtain ⟨event, calm, stepped⟩ := move
    exact step_whole ih calm stepped

private theorem admitted_calm (admitted : admits event = true) : Calm event log := by
  cases event with
  | borrow caller request =>
    cases request with
    | take => simp [Calm]
    | receive | lock => cases caller <;> cases admitted
  | panic => cases admitted
  | call | upgrade | acquire | store | replace | change | unlock | leave | drop => trivial

private theorem call_begins {caller : Caller} {link : StoreLock.Link} {messages : List M}
    (called : StoreLock.step (Store.log M) (.call caller link messages) log = some after) :
    log.phase caller = .idle ∧ after = log.begin caller (some messages) (.upgrading link messages) := by
  simp only [StoreLock.step] at called
  split at called
  next idle =>
    cases called
    exact ⟨idle, rfl⟩
  · cases called

/-- The notifier and the logs agree on who is in which call, and on what was brought. -/
structure Linked [VecGrowth] (state : State M) : Prop where
  notified : Reaches SharedNotifier.step Free SharedNotifier.initial state.notifier
  logged : ∀ id, Reaches (StoreLock.step (Store.log M)) Calm (StoreLock.initial []) (state.logs id)
  inside : ∀ id thread, ((state.logs id).phase (.inl thread)).call = (heading id (state.notifier.within thread)).map some
  calls : ∀ id thread, own (.inl thread) (state.logs id).calls = (brought id thread state.notifier.history).map some
  refused : ∀ thread, ∀ reply ∈ gather Record.replies thread state.notifier.history, reply.2 = .ok false →
    (state.logs reply.1.1.listener).shared.value = none

section Steps
variable [VecGrowth] {state next : State M} {notifier : SharedNotifier.State Nat M}
  {action : SharedNotifier.Action Nat M}

private theorem Linked.rung (linked : Linked state) : Ringing state.notifier := SharedNotifier.run_ringing linked.notified

private theorem Linked.ring (linked : Linked state) (quiet : turn action = (thread, []))
    (stepped : SharedNotifier.step action state.notifier = some notifier)
    (rang : state.ring thread notifier = some next) : Linked next := by
  obtain ⟨_, rings⟩ := linked.rung.step stepped
  rw [quiet] at rings
  have outside := rings.begins
  have notified := linked.notified.snoc trivial stepped
  have replied : ∀ thread, ∀ reply ∈ gather Record.replies thread notifier.history, reply.2 = .ok false →
      (state.logs reply.1.1.listener).shared.value = none := by
    intro other reply member refuses
    rw [rings.replies, outside] at member
    exact linked.refused other reply (by simpa using member) refuses
  unfold State.ring at rang
  split at rang
  next registration messages here =>
    obtain ⟨log, called, rfl⟩ := Option.map_eq_some_iff.mp rang
    obtain ⟨_, rfl⟩ := call_begins called
    refine ⟨notified, ?_, ?_, ?_, ?_⟩
    · intro id
      by_cases same : id = registration.listener
      · subst same
        have permitted : Calm (.call (.inl thread) .listener messages) (state.logs registration.listener) :=
          trivial
        simp only [Function.update_self]
        exact (linked.logged registration.listener).snoc permitted called
      · simp only [Function.update_of_ne same]
        exact linked.logged id
    · intro id other
      by_cases own : other = thread
      · subst own
        by_cases same : id = registration.listener
        · subst same
          simp [here, StoreLock.State.begin, StoreLock.State.move, StoreLock.Phase.call]
        · simp [same, linked.inside, outside, here, Ne.symm same]
      · by_cases same : id = registration.listener
        · subst same
          simp [own, rings.elsewhere other own, StoreLock.State.begin, StoreLock.State.move, linked.inside]
        · simp [same, linked.inside, rings.elsewhere other own]
    · intro id other
      rw [brought_grown rings, List.map_append, ← linked.calls, here]
      by_cases same : id = registration.listener
      · subst same
        by_cases own : other = thread
        · subst own
          simp [StoreLock.own, StoreLock.State.begin]
        · simp [own, Ne.symm own, StoreLock.own, StoreLock.State.begin]
      · simp [same, Ne.symm same]
    · intro other reply member refuses
      have gone := replied other reply member refuses
      by_cases same : reply.1.1.listener = registration.listener
      · simp only [same, Function.update_self]
        rw [same] at gone
        exact gone
      · simp only [Function.update_of_ne same]
        exact gone
  next here =>
    cases rang
    refine ⟨notified, linked.logged, ?_, ?_, replied⟩
    · intro id other
      by_cases own : other = thread
      · subst own
        rw [linked.inside, outside, here]
      · rw [linked.inside, rings.elsewhere other own]
    · intro id other
      rw [linked.calls, brought_grown rings, here]
      simp

/-- What the step of one log does to all of them. -/
structure Logged (event : StoreLock.Action Caller (List M) M) (id : Nat) (before after : Nat → Log M) : Prop where
  runs : ∀ other, Reaches (StoreLock.step (Store.log M)) Calm (StoreLock.initial []) (after other)
  calls : ∀ other thread, own (.inl thread) (after other).calls = own (.inl thread) (before other).calls
  inside : ∀ other thread, ((after other).phase (.inl thread)).call =
    if other = id ∧ returner event (before id) = some (.inl thread) then none
    else ((before other).phase (.inl thread)).call
  gone : ∀ other, (before other).shared.value = none → (after other).shared.value = none

private theorem Linked.logged_step (linked : Linked state) (admitted : admits event = true)
    (stepped : StoreLock.step (Store.log M) event (state.logs id) = some after) :
    Logged event id state.logs (Function.update state.logs id after) := by
  constructor
  · intro other
    by_cases same : other = id
    · subst same
      rw [Function.update_self]
      exact (linked.logged other).snoc (admitted_calm admitted) stepped
    · rw [Function.update_of_ne same]
      exact linked.logged other
  · intro other thread
    by_cases same : other = id
    · subst same
      rw [Function.update_self, (own_step stepped admitted thread).1]
    · rw [Function.update_of_ne same]
  · intro other thread
    by_cases same : other = id
    · subst same
      simp [own_step stepped admitted thread]
    · simp [same]
  · intro other destroyed
    by_cases same : other = id
    · subst same
      rw [Function.update_self]
      exact (StoreLock.step_gone (StoreLock.run_located (linked.logged other)) destroyed stepped).1
    · rw [Function.update_of_ne same]
      exact destroyed

private theorem Linked.sent (linked : Linked state) (busy : ((state.logs id).phase (.inl thread)).call ≠ none) :
    ∃ registration messages, state.notifier.within thread = some (registration, messages) ∧
      registration.listener = id := by
  rw [linked.inside] at busy
  cases open_ : state.notifier.within thread with
  | none => simp [open_] at busy
  | some call =>
    obtain ⟨registration, messages⟩ := call
    refine ⟨registration, messages, rfl, ?_⟩
    by_contra elsewhere
    simp [open_, elsewhere] at busy

private theorem Linked.answered {alive : Bool} (linked : Linked state)
    (logged : Logged event id state.logs (Function.update state.logs id after))
    (stepped : StoreLock.step (Store.log M) event (state.logs id) = some after)
    (returns : returning event (state.logs id) = some (.inl thread, alive))
    (answered : SharedNotifier.step (.answer thread (.ok alive)) state.notifier = some notifier) :
    Linked ⟨notifier, Function.update state.logs id after⟩ := by
  obtain ⟨busy, closed⟩ := returner_call stepped returns
  obtain ⟨registration, messages, open_, target⟩ := linked.sent busy
  have returned : returner event (state.logs id) = some (.inl thread) := by simp [returner, returns]
  obtain ⟨_, moved⟩ := linked.rung.step answered
  have rings : Rings [.ok alive] thread state.notifier notifier := moved
  have outside := rings.ends
  refine ⟨linked.notified.snoc trivial answered, logged.runs, ?_, ?_, ?_⟩
  · intro other caller
    by_cases own : caller = thread
    · subst own
      simp only [logged.inside, returned, linked.inside, open_, outside, heading_some, target]
      by_cases same : other = id
      · simp [same]
      · simp [same, Ne.symm same]
    · have different : thread ≠ caller := Ne.symm own
      simp only [logged.inside, returned, linked.inside, rings.elsewhere caller own, Option.some.injEq, Sum.inl.injEq,
        different, and_false, if_false]
  · intro other caller
    rw [logged.calls, linked.calls, brought_grown rings]
    by_cases own : caller = thread
    · simp [own, outside]
    · simp [own]
  · intro other reply member refuses
    rw [rings.replies, open_] at member
    rcases List.mem_append.mp member with old | new
    · exact logged.gone _ (linked.refused other reply old refuses)
    · split at new
      next own =>
        obtain rfl := List.mem_singleton.mp new
        obtain rfl : alive = false := Except.ok.inj refuses
        simp only [target]
        apply logged.gone
        exact (StoreLock.Located.gone (StoreLock.run_located (linked.logged id))).mpr (closed rfl)
      · cases new

private theorem Linked.hear (linked : Linked state) (admitted : admits event = true)
    (stepped : StoreLock.step (Store.log M) event (state.logs id) = some after)
    (heard : state.hear id after (returning event (state.logs id)) = some next) : Linked next := by
  have logged := linked.logged_step admitted stepped
  unfold State.hear at heard
  split at heard
  next thread alive returns =>
    obtain ⟨notifier, answered, rfl⟩ := Option.map_eq_some_iff.mp heard
    exact linked.answered logged stepped returns answered
  next elsewhere =>
    cases heard
    refine ⟨linked.notified, logged.runs, ?_, ?_, ?_⟩
    · intro other thread
      have silent : returner event (state.logs id) ≠ some (.inl thread) := by
        intro returned
        obtain ⟨⟨caller, alive⟩, returns, same⟩ := Option.map_eq_some_iff.mp returned
        dsimp only at same
        subst same
        exact elsewhere thread alive returns
      simp only [logged.inside, silent, and_false, if_false, linked.inside]
    · intro other thread
      rw [logged.calls, linked.calls]
    · intro other reply member refuses
      exact logged.gone _ (linked.refused other reply member refuses)

theorem Linked.step {action : Action M} (linked : Linked state) (stepped : NotifiedLogs.step action state = some next) :
    Linked next := by
  cases action with
  | call thread request =>
    obtain ⟨notifier, called, rang⟩ := Option.bind_eq_some_iff.mp stepped
    exact linked.ring rfl called rang
  | advance thread =>
    obtain ⟨notifier, advanced, rang⟩ := Option.bind_eq_some_iff.mp stepped
    exact linked.ring rfl advanced rang
  | log id event =>
    simp only [NotifiedLogs.step] at stepped
    split at stepped
    next admitted =>
      obtain ⟨log, stepped, heard⟩ := Option.bind_eq_some_iff.mp stepped
      exact linked.hear admitted stepped heard
    · cases stepped

private theorem linked_initial : Linked (initial : State M) := by
  refine ⟨.refl, fun _ => .refl, ?_, ?_, ?_⟩
  · intro id thread
    rfl
  · intro id thread
    rfl
  · intro thread reply member
    cases member

theorem run_linked (run : Reaches NotifiedLogs.step Free initial state) : Linked state :=
  run.invariant (fun _ _ _ _ stepped linked => linked.step stepped) linked_initial

end Steps

private theorem received_all {outcomes : List (StoreLock.Outcome (List M) M)} {batches : List (List M)}
    (same : outcomes.map StoreLock.Outcome.messages = batches.map some)
    (received : ∀ outcome ∈ outcomes, ∃ messages, outcome = .received messages) : outcomes = batches.map .received := by
  induction outcomes generalizing batches with
  | nil =>
    cases batches with
    | nil => rfl
    | cons => cases same
  | cons outcome outcomes ih =>
    obtain ⟨messages, rfl⟩ := received outcome List.mem_cons_self
    cases batches with
    | nil => cases same
    | cons batch batches =>
      rw [List.map_cons, List.map_cons, List.cons.injEq] at same
      cases same.1
      rw [List.map_cons, ih same.2 fun outcome member => received outcome (List.mem_cons_of_mem _ member)]

section Arrivals
variable [VecGrowth] {state : State M}

omit [VecGrowth] in
private theorem call_idle {phase : StoreLock.Phase (List M) M} (outside : phase.call = none) : phase = .idle := by
  cases phase <;> first | rfl | cases outside

private theorem Linked.lives (linked : Linked state) (owned : (state.logs id).owned = true) :
    (state.logs id).shared.value ≠ none := by
  have lives := (StoreLock.Located.lives (StoreLock.run_located (linked.logged id))).mpr (.inl owned)
  intro gone
  simp [gone] at lives

/-- A log that is still owned has taken in whatever it was brought. -/
private theorem Linked.stores (linked : Linked state) (owned : (state.logs id).owned = true)
    (idle : state.notifier.threads thread = .idle) :
    (own (.inl thread) (state.logs id).order).filter StoreLock.Outcome.effective =
      ((brought id thread state.notifier.history).filter fun messages => !messages.isEmpty).map .received := by
  have outside : ((state.logs id).phase (.inl thread)).call = none := by
    rw [linked.inside, SharedNotifier.State.within, idle, SharedNotifier.within_idle]
    rfl
  have unpending : ((state.logs id).phase (.inl thread)).pending = [] := by
    rw [call_idle outside]
    rfl
  obtain ⟨answered, worked⟩ := StoreLock.run_balanced (linked.logged id) (.inl thread)
  rw [outside, linked.calls, Option.toList_none, List.append_nil] at answered
  rw [unpending, List.append_nil] at worked
  have received : ∀ outcome ∈ own (.inl thread) (state.logs id).answers, ∃ messages, outcome = .received messages := by
    intro outcome member
    have brings : outcome.messages ∈ (own (.inl thread) (state.logs id).answers).map StoreLock.Outcome.messages :=
      List.mem_map_of_mem member
    rw [← answered, List.mem_map] at brings
    obtain ⟨messages, _, brings⟩ := brings
    obtain ⟨⟨caller, same⟩, filtered, rfl⟩ := List.mem_map.mp member
    obtain ⟨present, own⟩ := List.mem_filter.mp filtered
    cases same with
    | received messages => exact ⟨messages, rfl⟩
    | refused => exact absurd ((StoreLock.run_refusing (linked.logged id)).gone _ _ present) (linked.lives owned)
    | torn => exact ((run_whole (linked.logged id)).2 _ present).elim
    | took | held => cases brings
  rw [worked, received_all answered.symm received, List.filter_map]
  rfl

/-- Every batch that a send brings to a log, while the log is owned, is in the log when
the sender is done, whole, and in the order in which the sender sent. A send that
returns has called every log that was listening before once, and with its messages. What
a log holds is what was brought and not drained yet. -/
theorem messages_arrive [DecidableEq M] (run : Reaches NotifiedLogs.step Free initial state)
    (owned : (state.logs id).owned = true) :
    (∀ thread, state.notifier.threads thread = .idle →
      (own (.inl thread) (state.logs id).order).filter StoreLock.Outcome.effective =
        ((brought id thread state.notifier.history).filter fun messages => !messages.isEmpty).map .received) ∧
    (∀ earlier record later, state.notifier.history = earlier ++ record :: later → ∀ messages value,
      record.request = .notifyMany messages → record.outcome = some (.ok value) →
      ∀ registration ∈ stored earlier, registration.listener = id → record.calls.count (registration, messages) = 1) ∧
    ∀ contents, (state.logs id).shared.value = some contents → (state.logs id).mutex.writer = none →
      StoreLock.drained (state.logs id).order ++ contents = StoreLock.arrived (state.logs id).order := by
  have linked := run_linked run
  refine ⟨fun thread idle => linked.stores owned idle, ?_, ?_⟩
  · intro earlier record later split messages value sends returned registration member target
    obtain ⟨table, distinct, _, complete, _, kept⟩ := SharedNotifier.sent_table linked.notified split sends
    have spared : denied registration earlier = false := by
      rw [← Bool.not_eq_true, SharedNotifier.denied_iff]
      intro refused
      obtain ⟨other, before, messages, answer⟩ := refused
      have heard : ((registration, messages), .ok false) ∈ gather Record.replies other.thread state.notifier.history :=
        SharedNotifier.gather_member (by simp [split, before]) answer
      have gone := linked.refused other.thread _ heard rfl
      rw [target] at gone
      exact linked.lives owned gone
    have called := kept (SharedNotifier.returned_open linked.notified split sends returned) registration member spared
    rw [complete value returned]
    apply List.count_eq_one_of_mem
    · exact distinct.map fun first second same => congrArg Prod.fst same
    · exact List.mem_map_of_mem called
  · intro contents kept free
    have run := (linked.logged id).weaken calm_logs
    exact StoreLock.run_conserves run kept free

/-- A subscriber, two senders that are in the log at once, and someone who drains it
between their batches. -/
def meeting : List (Action Nat) :=
  [.call 0 (.listen ⟨0, 0⟩), .log 0 (.upgrade (.inl 0)), .log 0 (.leave (.inl 0)), .advance 0, .advance 0,
    .call 1 (.notifyMany [7]), .call 2 (.notifyMany [8, 9]), .advance 1, .advance 2, .log 0 (.upgrade (.inl 1)),
    .log 0 (.upgrade (.inl 2)), .log 0 (.acquire (.inl 2)), .log 0 (.store (.inl 2)), .log 0 (.borrow (.inr 0) .take),
    .log 0 (.store (.inl 2)), .log 0 (.unlock (.inl 2)), .log 0 (.acquire (.inr 0)), .log 0 (.replace (.inr 0)),
    .log 0 (.unlock (.inr 0)), .log 0 (.acquire (.inl 1)), .log 0 (.leave (.inl 2)), .log 0 (.leave (.inr 0)),
    .log 0 (.store (.inl 1)), .log 0 (.unlock (.inl 1)), .advance 2, .advance 2, .log 0 (.leave (.inl 1)), .advance 1,
    .advance 1]

omit [VecGrowth] in
theorem messages_arrive_meeting : ∃ (state : State Nat) (record : Record Nat Nat),
    exec (@NotifiedLogs.step _ .usual) meeting initial = some state ∧ record.thread = 2 ∧
      record.calls.count (⟨0, 0⟩, [8, 9]) = 1 ∧
      (own (.inl 2) (state.logs 0).order).filter StoreLock.Outcome.effective = [.received [8, 9]] ∧
      StoreLock.drained (state.logs 0).order ++ [7] = StoreLock.arrived (state.logs 0).order := by
  have run : ∃ (state : State Nat) (earlier later : List (Record Nat Nat)) (record : Record Nat Nat),
      exec (@NotifiedLogs.step _ .usual) meeting initial = some state ∧
        state.notifier.history = earlier ++ record :: later ∧ record.request = .notifyMany [8, 9] ∧
        record.outcome = some (.ok none) ∧ record.thread = 2 ∧ stored earlier = [⟨0, 0⟩] ∧
        (state.logs 0).shared.value = some [7] ∧ (state.logs 0).owned = true ∧ (state.logs 0).mutex.writer = none ∧
        state.notifier.threads 2 = .idle ∧ brought 0 2 state.notifier.history = [[8, 9]] :=
    ⟨_, [_, _], [], _, rfl, rfl, rfl, rfl, rfl, rfl, rfl, rfl, rfl, rfl, rfl⟩
  obtain ⟨state, earlier, later, record, executed, split, sends, returned, thread, listening, kept, owned, free, idle,
    came⟩ := run
  obtain ⟨stores, once, conserves⟩ := @messages_arrive _ _ .usual _ _ (Transition.exec_reaches executed) owned
  have called := once earlier record later split [8, 9] none sends returned ⟨0, 0⟩ (by simp [listening]) rfl
  refine ⟨state, record, executed, thread, called, ?_, conserves [7] kept free⟩
  rw [stores 2 idle, came]
  rfl

/-- The caller goes on in the log, and the notifier with it where the call returns. -/
def Goes (state : State M) (id : Nat) (caller : Caller) : Prop :=
  ∃ event next, event.next = some caller ∧ NotifiedLogs.step (.log id event) state = some next

omit [VecGrowth] in
private theorem next_admitted {caller : Caller} (next : event.next = some caller) : admits event = true := by
  cases event <;> first | rfl | cases next

private theorem Linked.goes {caller : Caller} (linked : Linked state)
    (goes : StoreLock.Goes (Store.log M) (state.logs id) caller) : Goes state id caller := by
  obtain ⟨event, after, next, stepped⟩ := goes
  have heard : ∃ next, state.hear id after (returning event (state.logs id)) = some next := by
    unfold State.hear
    split
    next thread alive returns =>
      obtain ⟨registration, messages, open_, _⟩ := linked.sent (returner_call stepped returns).1
      have waiting : (state.notifier.within thread).isSome = true := by simp [open_]
      obtain ⟨notifier, answered⟩ := linked.rung.answers waiting (.ok alive)
      rw [answered]
      exact ⟨_, rfl⟩
    · exact ⟨_, rfl⟩
  obtain ⟨last, heard⟩ := heard
  refine ⟨event, last, next, ?_⟩
  rw [NotifiedLogs.step, if_pos (next_admitted next), stepped]
  exact heard

private theorem Linked.advances (linked : Linked state) {notifier : SharedNotifier.State Nat M}
    (stepped : SharedNotifier.step (.advance thread) state.notifier = some notifier) :
    ∃ next, NotifiedLogs.step (.advance thread) state = some next := by
  obtain ⟨_, moved⟩ := linked.rung.step stepped
  have rings : Rings [] thread state.notifier notifier := moved
  have outside := rings.begins
  have rang : ∃ next, state.ring thread notifier = some next := by
    unfold State.ring
    split
    next registration messages here =>
      have idle : (state.logs registration.listener).phase (.inl thread) = .idle := by
        apply call_idle
        rw [linked.inside, outside]
        rfl
      simp [StoreLock.step, idle]
    · exact ⟨_, rfl⟩
  obtain ⟨next, rang⟩ := rang
  refine ⟨next, ?_⟩
  rw [NotifiedLogs.step, stepped]
  exact rang

/-- Nobody is stuck: whoever is in a log goes on, or waits for a holder of its mutex that
does; whoever is in the notifier goes on, or is in a log. -/
theorem everyone_goes (run : Reaches NotifiedLogs.step Free initial state) :
    (∀ id caller, (state.logs id).phase caller ≠ .idle →
      Goes state id caller ∨ ∃ holder, (state.logs id).mutex.writer = some holder ∧ Goes state id holder) ∧
    ∀ thread, state.notifier.threads thread ≠ .idle →
      (∃ next, NotifiedLogs.step (.advance thread) state = some next) ∨
        ∃ id, (state.logs id).phase (.inl thread) ≠ .idle := by
  have linked := run_linked run
  constructor
  · intro id caller busy
    have somebody : StoreLock.Goes (Store.log M) (state.logs id) caller ∨ ∃ holder,
        (state.logs id).mutex.writer = some holder ∧ StoreLock.Goes (Store.log M) (state.logs id) holder :=
      StoreLock.caller_goes (StoreLock.run_located (linked.logged id)) busy
    rcases somebody with goes | ⟨holder, holds, goes⟩
    · exact .inl (linked.goes goes)
    · exact .inr ⟨holder, holds, linked.goes goes⟩
  · intro thread busy
    rcases linked.rung.goes busy with ⟨notifier, advanced⟩ | ⟨⟨registration, messages⟩, open_⟩
    · exact .inl (linked.advances advanced)
    · right
      refine ⟨registration.listener, ?_⟩
      intro idle
      have inside := linked.inside registration.listener thread
      rw [idle, open_] at inside
      simp [StoreLock.Phase.call] at inside

omit [VecGrowth] in
theorem everyone_goes_meeting : ∃ state : State Nat, exec (@NotifiedLogs.step _ .usual) (meeting.take 13) initial = some state ∧
    state.notifier.threads 1 ≠ .idle ∧
      (@Goes _ .usual state 0 (.inl 1) ∨
        ∃ holder, (state.logs 0).mutex.writer = some holder ∧ @Goes _ .usual state 0 holder) := by
  have run : ∃ state : State Nat, exec (@NotifiedLogs.step _ .usual) (meeting.take 13) initial = some state ∧
      state.notifier.threads 1 = .receiving [7] 0 ∧ (state.logs 0).phase (.inl 1) = .locking (.receive .listener [7]) :=
    ⟨_, rfl, rfl, rfl⟩
  obtain ⟨state, executed, receiving, locking⟩ := run
  have busy : (state.logs 0).phase (.inl 1) ≠ .idle := by simp [locking]
  exact ⟨state, executed, by simp [receiving],
    (@everyone_goes _ .usual _ (Transition.exec_reaches executed)).1 0 (.inl 1) busy⟩

end Arrivals

end Nosy.NotifiedLogs
