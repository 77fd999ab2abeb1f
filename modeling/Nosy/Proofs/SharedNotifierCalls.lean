import Nosy.Proofs.SharedNotifierProgress

/-! What a shared notifier does to the listeners it calls: which call of `receive` a
method is in, which calls a thread has made, and what was answered to whom. Whoever
composes it with its listeners needs no more than this. -/

namespace Nosy.SharedNotifier

variable {ι M : Type} {history : List (Record ι M)} {record : Record ι M} {thread other : Nat}

/-- The method waits for `receive`. -/
def Phase.asks : Phase ι M → Bool
  | .receiving .. | .offering _ | .asking .. => true
  | .idle | .sending .. | .marking .. | .pruning .. | .storing _ => false

/-- The call of `receive` that begins. -/
private def Effect.rings : Effect ι M → Option (Registration ι × List M)
  | .calls registration messages _ => some (registration, messages)
  | .goes .. | .ends .. => none

private theorem within_members (first second : RawNotifier (Registration ι)) (phase : Phase ι M)
    (same : members first = members second) : phase.within (.opened first) = phase.within (.opened second) := by
  have entry (index : Nat) (messages : List M) :
      (first.listeners[index]?.map fun entry => (entry.listener, messages)) =
        second.listeners[index]?.map fun entry => (entry.listener, messages) := by
    have listener := congrArg (fun registrations => registrations[index]?.map (·, messages)) same
    simpa [members, Function.comp_def] using listener
  cases phase with
  | receiving messages index => exact entry index messages
  | asking goal index => exact entry index []
  | idle | sending | marking | offering | pruning | storing => rfl

section Moves
variable [VecGrowth] {current : RawNotifier (Registration ι)} {phase : Phase ι M}
  {heard : List Answer} {effect : Effect ι M}

omit [VecGrowth] in
private theorem answered_turn {answer : Answer} (answered : phase.answered current answer = some effect) :
    phase.asks = true ∧ effect.rings = none ∧ effect.phase.within (.opened (effect.leaves current)) = none ∧
      effect.phase.asks = false := by
  rcases answer_cases answer with ⟨message, rfl⟩ | rfl | rfl
  · cases phase <;> cases answered <;> exact ⟨rfl, rfl, rfl, rfl⟩
  · cases phase with
    | offering registration =>
      simp only [Phase.answered, Phase.returned] at answered
      split at answered <;> cases answered <;> exact ⟨rfl, rfl, rfl, rfl⟩
    | idle | sending | marking | pruning | storing => cases answered
    | receiving | asking => cases answered; exact ⟨rfl, rfl, rfl, rfl⟩
  · cases phase <;> cases answered <;> exact ⟨rfl, rfl, rfl, rfl⟩

private theorem advance_turn (advanced : phase.advance current = some effect) :
    phase.asks = false ∧ effect.phase.within (.opened (effect.leaves current)) = effect.rings ∧
      effect.phase.asks = effect.rings.isSome := by
  cases phase with
  | idle | receiving | offering | asking => cases advanced
  | marking | storing =>
    cases advanced
    exact ⟨rfl, rfl, rfl⟩
  | sending messages index =>
    simp only [Phase.advance] at advanced
    split at advanced
    next entry found =>
      cases advanced
      exact ⟨rfl, by simp [Effect.leaves, Effect.phase, Phase.within, Effect.rings, found], rfl⟩
    · cases advanced
      exact ⟨rfl, rfl, rfl⟩
  | pruning goal index =>
    simp only [Phase.advance] at advanced
    split at advanced
    next entry found =>
      split at advanced
      · cases advanced
        exact ⟨rfl, by simp [Effect.leaves, Effect.phase, Phase.within, Effect.rings, found], rfl⟩
      · cases advanced
        exact ⟨rfl, rfl, rfl⟩
    all_goals
      cases advanced
      exact ⟨rfl, rfl, rfl⟩

private theorem moves_within (moves : Moves current phase heard effect) :
    effect.phase.within (.opened (effect.leaves current)) = effect.rings ∧ effect.phase.asks = effect.rings.isSome := by
  cases moves with
  | advance advanced => exact (advance_turn advanced).2
  | answer answered =>
    obtain ⟨_, none, outside, silent⟩ := answered_turn answered
    rw [none]
    exact ⟨outside, silent⟩

end Moves

section Gather
variable {α : Type} {part : Record ι M → List α}

private theorem gather_append : gather part other (history ++ [record]) =
    gather part other history ++ if other = record.thread then part record else [] := by
  by_cases own : other = record.thread <;> simp [gather, own, Ne.symm]

private theorem gather_amended {earlier later : List (Record ι M)} {change : Record ι M → Record ι M} {added : List α}
    (located : Located history thread earlier record later) (late : ∀ other ∈ later, other.thread ≠ thread)
    (kept : (change record).thread = record.thread) (grows : part (change record) = part record ++ added) :
    gather part other (amend thread change history) =
      gather part other history ++ if other = thread then added else [] := by
  rw [located.amend, located.split]
  have owner := located.owner
  by_cases own : other = thread
  · subst own
    have silent : later.filter (fun record => record.thread = other) = [] := by
      simpa [List.filter_eq_nil_iff] using late
    simp [gather, owner, kept, grows, silent]
  · simp [gather, kept, owner, own, Ne.symm own]

theorem gather_member {entry : α} (present : record ∈ history) (member : entry ∈ part record) :
    entry ∈ gather part record.thread history :=
  List.mem_flatMap.mpr ⟨record, List.mem_filter.mpr ⟨present, decide_eq_true rfl⟩, member⟩

end Gather

/-- All calls were answered but the one that the thread is in. -/
def Asked (call : Option (Registration ι × List M)) (record : Record ι M) : Prop :=
  ∃ done, record.calls = done ++ call.toList ∧ done.length = record.answers.length

/-- Nothing was heard outside `receive`, and whoever hears something leaves it. -/
def Turns (heard : List Answer) (before after : Option (Registration ι × List M)) : Prop :=
  heard = [] ∧ before = none ∨ ∃ answer call, heard = [answer] ∧ before = some call ∧ after = none

structure Ringing [VecGrowth] (notifier : State ι M) : Prop where
  valid : Valid notifier
  waits : ∀ thread, (notifier.within thread).isSome = (notifier.threads thread).asks
  asked : ∀ record ∈ notifier.history, record.running = true → Asked (notifier.within record.thread) record

/-- What a step of the notifier has to do with its listeners. -/
structure Rings (heard : List Answer) (thread : Nat) (before after : State ι M) : Prop where
  elsewhere : ∀ other, other ≠ thread → after.within other = before.within other
  turns : Turns heard (before.within thread) (after.within thread)
  threads : ∀ other, other ≠ thread → after.threads other = before.threads other
  calls : ∀ other, gather (·.calls) other after.history =
    gather (·.calls) other before.history ++ if other = thread then (after.within thread).toList else []
  replies : ∀ other, gather Record.replies other after.history = gather Record.replies other before.history ++
    if other = thread then (before.within thread).toList.zip heard else []

theorem Rings.begins {before after : State ι M} (rings : Rings [] thread before after) :
    before.within thread = none := by
  rcases rings.turns with ⟨_, outside⟩ | ⟨_, _, heard, _⟩
  · exact outside
  · cases heard

theorem Rings.ends {before after : State ι M} {answer : Answer}
    (rings : Rings [answer] thread before after) : after.within thread = none := by
  rcases rings.turns with ⟨heard, _⟩ | ⟨_, _, _, _, outside⟩
  · cases heard
  · exact outside

theorem within_idle (notifier : Notifier (Registration ι)) :
    (.idle : Phase ι M).within notifier = none := by
  cases notifier <;> rfl

private theorem change_calls (effect : Effect ι M) (heard : List Answer) :
    (effect.change heard record).calls = record.calls ++ effect.rings.toList ∧
      (effect.change heard record).answers = record.answers ++ heard := by
  cases effect with
  | calls => exact ⟨rfl, rfl⟩
  | goes | ends => exact ⟨(List.append_nil _).symm, rfl⟩

private theorem start_within {request : Request ι M} {notifier : Notifier (Registration ι)}
    {calls : List (Registration ι × List M)} {phase : Phase ι M}
    (started : request.start notifier = .enters calls phase) :
    calls = (phase.within notifier).toList ∧ (phase.within notifier).isSome = phase.asks := by
  cases request <;> cases notifier <;> cases started <;> exact ⟨rfl, rfl⟩

private theorem replies_earlier {done added : List (Registration ι × List M)} (calls : record.calls = done ++ added)
    (paired : done.length = record.answers.length) : record.replies = done.zip record.answers := by
  rw [Record.replies, calls, ← List.append_nil record.answers, List.zip_append paired, List.zip_nil_right,
    List.append_nil, List.append_nil]

/-- What a use hears belongs to the call that its thread is in. -/
private theorem Asked.change {call : Option (Registration ι × List M)} {heard : List Answer} {effect : Effect ι M}
    (asked : Asked call record) (turns : Turns heard call effect.rings) :
    Asked effect.rings (effect.change heard record) ∧
      (effect.change heard record).replies = record.replies ++ call.toList.zip heard := by
  obtain ⟨done, made, paired⟩ := asked
  obtain ⟨calls, answers⟩ := @change_calls _ _ record effect heard
  rw [replies_earlier made paired]
  rcases turns with ⟨rfl, rfl⟩ | ⟨answer, call, rfl, rfl, none⟩
  · have same : (effect.change [] record).calls = done ++ effect.rings.toList := by simpa [made] using calls
    have length : done.length = (effect.change [] record).answers.length := by simp [answers, paired]
    refine ⟨⟨done, same, length⟩, ?_⟩
    rw [replies_earlier same length, answers, List.append_nil, List.zip_nil_right, List.append_nil]
  · have same : (effect.change [answer] record).calls = (done ++ [call]) ++ effect.rings.toList := by
      rw [calls, made, Option.toList_some]
    have length : (done ++ [call]).length = (effect.change [answer] record).answers.length := by simp [answers, paired]
    refine ⟨⟨done ++ [call], same, length⟩, ?_⟩
    rw [replies_earlier same length, answers, List.zip_append paired, Option.toList_some]

section Steps
variable [VecGrowth] {before after : State ι M} {current : RawNotifier (Registration ι)}
  {heard : List Answer} {effect : Effect ι M}

private theorem moved_here (moves : Moves current (before.threads thread) heard effect) :
    (before.moved thread current heard effect).within thread = effect.rings := by
  simpa only [State.within, State.moved, Function.update_self] using (moves_within moves).1

/-- Who is in `receive` stays there, as the listeners do not move while anyone reads them. -/
private theorem moved_elsewhere (booked : Booked before) (opened : before.notifier = .opened current)
    (moves : Moves current (before.threads thread) heard effect) (different : other ≠ thread) :
    (before.moved thread current heard effect).within other = before.within other := by
  simp only [State.within, State.moved, Function.update_of_ne different, opened]
  cases access : (before.threads thread).access with
  | none => exact absurd access (moves_access moves).1
  | some kind =>
    cases kind with
    | shared => exact within_members _ _ _ (reads_members moves access)
    | exclusive =>
      have outside := booked.held.others_outside ((booked.held.writer thread).mpr access) different
      rw [access_idle outside, within_idle, within_idle]

private theorem Ringing.turns (rung : Ringing before) (moves : Moves current (before.threads thread) heard effect) :
    Turns heard (before.within thread) effect.rings := by
  have waits := rung.waits thread
  cases moves with
  | advance advanced =>
    rw [(advance_turn advanced).1, Option.isSome_eq_false_iff, Option.isNone_iff_eq_none] at waits
    exact .inl ⟨rfl, waits⟩
  | answer answered =>
    obtain ⟨waiting, none, _⟩ := answered_turn answered
    rw [waiting, Option.isSome_iff_exists] at waits
    obtain ⟨call, open_⟩ := waits
    exact .inr ⟨_, call, rfl, open_, none⟩

omit [VecGrowth] in
/-- A thread does nothing after a use that has not ended. -/
private theorem located_late {notifier : State ι M} {earlier later : List (Record ι M)}
    (booked : Booked notifier) (located : Located notifier.history thread earlier record later) :
    ∀ other ∈ later, other.thread ≠ thread := by
  have single := booked.single
  rw [located.split, List.pairwise_append, List.pairwise_cons] at single
  intro other member same
  exact single.2.1.1 other member located.running (located.owner.trans same.symm)

omit [VecGrowth] in
private theorem located_member {earlier later : List (Record ι M)} {change : Record ι M → Record ι M}
    (located : Located history thread earlier record later) {other : Record ι M}
    (member : other ∈ amend thread change history) :
    other = change record ∨ other ∈ history ∧ ¬ (other.thread = thread ∧ other.running = true) := by
  rw [located.amend, List.mem_append, List.mem_cons] at member
  have kept (untouched : other ∈ earlier ++ later) : other ∈ history := by
    rw [located.split]
    exact (List.sublist_cons_self record later).append_left earlier |>.subset untouched
  rcases member with early | rfl | late
  · have untouched : other ∈ earlier ++ later := List.mem_append_left _ early
    exact .inr ⟨kept untouched, located.others other untouched⟩
  · exact .inl rfl
  · have untouched : other ∈ earlier ++ later := List.mem_append_right _ late
    exact .inr ⟨kept untouched, located.others other untouched⟩

private theorem Ringing.moved (rung : Ringing before) (opened : before.notifier = .opened current)
    (moves : Moves current (before.threads thread) heard effect) :
    Ringing (before.moved thread current heard effect) ∧
      Rings heard thread before (before.moved thread current heard effect) := by
  have booked := rung.valid.toBooked
  have here : (before.moved thread current heard effect).within thread = effect.rings := moved_here moves
  have turns := rung.turns moves
  have busy : before.threads thread ≠ .idle := by
    intro idle
    have active := (moves_access moves).1
    rw [idle] at active
    exact active rfl
  obtain ⟨earlier, record, later, located⟩ := booked.locate busy
  have asked := rung.asked record (by simp [located.split]) located.running
  rw [located.owner] at asked
  obtain ⟨still, replies⟩ := asked.change turns
  have late := located_late booked located
  constructor
  · constructor
    · exact rung.valid.moved opened moves
    · intro other
      by_cases own : other = thread
      · subst own
        rw [here, ← (moves_within moves).2]
        simp [State.moved]
      · rw [moved_elsewhere booked opened moves own, rung.waits other]
        simp [State.moved, own]
    · intro other member running
      rcases located_member located member with rfl | ⟨present, untouched⟩
      · rw [effect.change_thread, located.owner, here]
        exact still
      · rw [moved_elsewhere booked opened moves fun same => untouched ⟨same, running⟩]
        exact rung.asked other present running
  · constructor
    · exact fun other different => moved_elsewhere booked opened moves different
    · rw [here]
      exact turns
    · intro other different
      simp [State.moved, different]
    · intro other
      rw [here]
      exact gather_amended located late (effect.change_thread heard record) (change_calls effect heard).1
    · intro other
      exact gather_amended located late (effect.change_thread heard record) replies

omit [VecGrowth] in
private theorem start_elsewhere {lock : SharedLock Nat} {request : Request ι M}
    {notifier : Notifier (Registration ι)} {outcome : Outcome} (booked : Booked before)
    (acquired : request.acquire thread before.lock = some lock)
    (started : request.start before.notifier = .passes notifier outcome) (other : Nat) :
    (before.threads other).within notifier = (before.threads other).within before.notifier := by
  cases request with
  | notifyMany | listen | count =>
    cases opened : before.notifier <;> rw [opened] at started <;> cases started
    rfl
  | close =>
    obtain ⟨nobody, empty, _⟩ := SharedLock.write_some acquired
    rw [access_idle (booked.held.outside nobody empty), within_idle, within_idle]

private theorem Ringing.append (rung : Ringing before) (idle : before.threads thread = .idle) (valid : Valid after)
    (history : after.history = before.history ++ [record]) (owner : record.thread = thread)
    (calls : record.calls = (after.within thread).toList) (silent : record.answers = [])
    (waits : (after.within thread).isSome = (after.threads thread).asks)
    (elsewhere : ∀ other, other ≠ thread →
      after.within other = before.within other ∧ after.threads other = before.threads other) :
    Ringing after ∧ Rings [] thread before after := by
  constructor
  · constructor
    · exact valid
    · intro other
      by_cases own : other = thread
      · subst own
        exact waits
      · obtain ⟨same, threads⟩ := elsewhere other own
        rw [same, threads]
        exact rung.waits other
    · intro other member running
      rw [history, List.mem_append, List.mem_singleton] at member
      rcases member with member | rfl
      · have apart : other.thread ≠ thread := by
          intro same
          exact rung.valid.resting other member running (same ▸ idle)
        rw [(elsewhere other.thread apart).1]
        exact rung.asked other member running
      · rw [owner]
        exact ⟨[], calls, by rw [silent]; rfl⟩
  · constructor
    · exact fun other different => (elsewhere other different).1
    · exact .inl ⟨rfl, by rw [State.within, idle, within_idle]⟩
    · exact fun other different => (elsewhere other different).2
    · intro other
      rw [history, gather_append, owner, calls]
    · intro other
      rw [history, gather_append]
      simp [Record.replies, silent]

private theorem Ringing.begin {request : Request ι M} (rung : Ringing before)
    (idle : before.threads thread = .idle) (began : before.begin thread request = some after) (valid : Valid after) :
    Ringing after ∧ Rings [] thread before after := by
  have booked := rung.valid.toBooked
  obtain ⟨lock, registered, acquired, _, ⟨calls, phase, started, rfl⟩ | ⟨notifier, outcome, started, rfl⟩⟩ :=
    begin_cases began
  · obtain ⟨same, waits⟩ := start_within started
    apply rung.append idle valid rfl rfl
    · simpa [State.within] using same
    · rfl
    · simpa [State.within] using waits
    · intro other different
      simp [State.within, different]
  · have outside : (before.threads thread).within notifier = none := by rw [idle, within_idle]
    apply rung.append idle valid rfl rfl
    · simp [State.within, outside]
    · rfl
    · simp [State.within, idle, within_idle, Phase.asks]
    · intro other different
      exact ⟨start_elsewhere booked acquired started other, rfl⟩

/-- The thread of an action, and what it hears. -/
def turn : Action ι M → Nat × List Answer
  | .call thread _ | .advance thread => (thread, [])
  | .answer thread answer => (thread, [answer])

theorem Ringing.step {action : Action ι M} (rung : Ringing before)
    (stepped : step action before = some after) :
    Ringing after ∧ Rings (turn action).2 (turn action).1 before after := by
  have valid := rung.valid.step stepped
  obtain ⟨thread, request, rfl, idle, began⟩ | ⟨thread, current, heard, effect, action_, opened, moves, rfl⟩ :=
    step_cases stepped
  · exact rung.begin idle began valid
  · rcases action_ with ⟨rfl, rfl⟩ | ⟨answer, rfl, rfl⟩
    · exact rung.moved opened moves
    · exact rung.moved opened moves

private theorem ringing_initial : Ringing (initial : State ι M) := by
  constructor
  · exact valid_initial
  · intro thread
    rfl
  · intro record member
    cases member

theorem run_ringing {allowed : Action ι M → State ι M → Prop} {state : State ι M}
    (run : Transition.Reaches step allowed initial state) : Ringing state :=
  run.invariant (fun _ _ _ _ stepped rung => (rung.step stepped).1) ringing_initial

/-- A call of `receive` can end as it likes. -/
theorem Ringing.answers (rung : Ringing before) (waiting : (before.within thread).isSome) (answer : Answer) :
    ∃ after, SharedNotifier.step (.answer thread answer) before = some after := by
  rw [rung.waits] at waiting
  have busy : before.threads thread ≠ .idle := by
    intro idle
    rw [idle] at waiting
    cases waiting
  obtain ⟨raw, opened⟩ := rung.valid.is_open busy
  rcases phase_enabled raw busy with ⟨effect, advanced⟩ | answered
  · rw [(advance_turn advanced).1] at waiting
    cases waiting
  · obtain ⟨effect, answered⟩ := answered answer
    simp [SharedNotifier.step, opened, answered]

/-- Whoever is in a use goes on, or is in `receive`. -/
theorem Ringing.goes (rung : Ringing before) (busy : before.threads thread ≠ .idle) :
    (∃ after, SharedNotifier.step (.advance thread) before = some after) ∨ ∃ call, before.within thread = some call := by
  obtain ⟨raw, opened⟩ := rung.valid.is_open busy
  rcases phase_enabled raw busy with ⟨effect, advanced⟩ | answered
  · left
    simp [SharedNotifier.step, opened, advanced]
  · right
    obtain ⟨effect, answered⟩ := answered (.ok true)
    have waiting := rung.waits thread
    rw [(answered_turn answered).1, Option.isSome_iff_exists] at waiting
    exact waiting

end Steps

theorem call_idle [VecGrowth] {request : Request ι M} {before after : State ι M}
    (stepped : step (.call thread request) before = some after) : before.threads thread = .idle := by
  simp only [step] at stepped
  split at stepped
  next idle => exact idle
  · cases stepped

def Action.requests : Action ι M → List (Request ι M)
  | .call _ request => [request]
  | .advance _ | .answer .. => []

theorem advance_busy [VecGrowth] {before after : State ι M} (stepped : step (.advance thread) before = some after) :
    before.threads thread ≠ .idle := by
  intro idle
  simp only [step, idle] at stepped
  split at stepped <;> cases stepped

/-- A step begins at most one use, and ends it where the thread is idle afterwards. -/
structure Uses (thread : Nat) (requests : List (Request ι M)) (before after : State ι M) : Prop where
  requests : ∀ other, gather (fun record => [record.request]) other after.history =
    gather (fun record => [record.request]) other before.history ++ if other = thread then requests else []
  outcomes : ∃ ended : Option Outcome, (ended.isSome ↔ after.threads thread = .idle) ∧
    ∀ other, gather (·.outcome.toList) other after.history =
      gather (·.outcome.toList) other before.history ++ if other = thread then ended.toList else []

section Uses
variable [VecGrowth] {before after : State ι M} {current : RawNotifier (Registration ι)} {heard : List Answer}
  {effect : Effect ι M}

private theorem Booked.moved_uses (booked : Booked before) (moves : Moves current (before.threads thread) heard effect) :
    Uses thread [] before (before.moved thread current heard effect) := by
  obtain ⟨inside, access⟩ := moves_access moves
  have busy : before.threads thread ≠ .idle := by
    intro idle
    rw [idle] at inside
    exact inside rfl
  obtain ⟨earlier, record, later, located⟩ := booked.locate busy
  have late := located_late booked located
  have unended : record.outcome = none := by simpa [Record.running] using located.running
  constructor
  · intro other
    apply gather_amended located late (effect.change_thread heard record)
    rw [effect.change_request, List.append_nil]
  · cases effect with
    | ends after outcome =>
      refine ⟨some outcome, by simp [State.moved, Effect.phase], ?_⟩
      intro other
      apply gather_amended located late (Effect.change_thread _ heard record)
      simp [unended, Effect.change, Record.finish]
    | goes after next | calls registration messages next =>
      refine ⟨none, ?_, ?_⟩
      · rcases access with access | ⟨_, _, wrong⟩
        · rw [← access] at inside
          simp only [Option.isSome_none, Bool.false_eq_true, false_iff, State.moved, Function.update_self]
          intro idle
          rw [idle] at inside
          exact inside rfl
        · cases wrong
      · intro other
        apply gather_amended located late (Effect.change_thread _ heard record)
        exact (List.append_nil _).symm

omit [VecGrowth] in
private theorem begin_uses {request : Request ι M} (idle : before.threads thread = .idle)
    (began : before.begin thread request = some after) : Uses thread [request] before after := by
  obtain ⟨lock, registered, _, _, ⟨calls, phase, started, rfl⟩ | ⟨notifier, outcome, _, rfl⟩⟩ := begin_cases began
  · refine ⟨fun other => gather_append, none, ?_, fun other => gather_append⟩
    have access := (start_enters started).2
    simp only [Option.isSome_none, Bool.false_eq_true, false_iff, Function.update_self]
    intro idle
    rw [idle] at access
    cases access
  · exact ⟨fun other => gather_append, some outcome, by simp [idle], fun other => gather_append⟩

theorem step_uses {action : Action ι M} (booked : Booked before) (stepped : step action before = some after) :
    Uses (turn action).1 action.requests before after := by
  obtain ⟨thread, request, rfl, idle, began⟩ | ⟨thread, current, heard, effect, action_, _, moves, rfl⟩ :=
    step_cases stepped
  · exact begin_uses idle began
  · rcases action_ with ⟨rfl, _⟩ | ⟨answer, rfl, _⟩
    · exact booked.moved_uses moves
    · exact booked.moved_uses moves

end Uses

def Goal.subject : Goal ι → Option (Registration ι)
  | .store registration => some registration
  | .tally => none

/-- What is being registered. -/
def Phase.subject : Phase ι M → Option (Registration ι)
  | .offering registration | .storing registration => some registration
  | .pruning goal _ | .asking goal _ => goal.subject
  | .idle | .sending .. | .receiving .. | .marking .. => none

/-- All of them are of one kind. -/
structure Knows (good : Registration ι → Prop) (state : State ι M) : Prop where
  table : ∀ raw, state.notifier = .opened raw → ∀ registration ∈ members raw, good registration
  subject : ∀ thread registration, (state.threads thread).subject = some registration → good registration

private theorem discard_members {registration : Registration ι} {index : Nat} {raw : RawNotifier (Registration ι)}
    (member : registration ∈ members (discard index raw)) : registration ∈ members raw := by
  obtain ⟨entry, inside, rfl⟩ := List.mem_map.mp member
  exact List.mem_map_of_mem (RetainSwap.swapRemove_subset raw.listeners index inside)

section Knows
variable [VecGrowth] {before after : State ι M} {current : RawNotifier (Registration ι)} {phase : Phase ι M}
  {heard : List Answer} {effect : Effect ι M} {registration : Registration ι} {good : Registration ι → Prop}

private theorem moves_members (moves : Moves current phase heard effect) :
    (registration ∈ members (effect.leaves current) → registration ∈ members current ∨ phase.subject = some registration) ∧
      (effect.phase.subject = some registration → phase.subject = some registration) := by
  have silent {next : Phase ι M} (nothing : next.subject = none) :
      next.subject = some registration → phase.subject = some registration := by
    rw [nothing]
    intro impossible
    cases impossible
  cases moves with
  | advance advanced =>
    cases phase with
    | idle | receiving | offering | asking => cases advanced
    | marking messages index alive =>
      cases advanced
      refine ⟨?_, silent rfl⟩
      intro member
      exact .inl ((members_mark index alive current) ▸ member)
    | storing stored =>
      cases advanced
      refine ⟨?_, silent rfl⟩
      intro member
      simpa [members, Effect.leaves, RawNotifier.push, Phase.subject, eq_comm] using member
    | sending messages index =>
      simp only [Phase.advance] at advanced
      split at advanced <;> cases advanced <;> exact ⟨.inl, silent rfl⟩
    | pruning goal index =>
      simp only [Phase.advance] at advanced
      split at advanced
      · split at advanced
        · cases advanced
          exact ⟨.inl, id⟩
        · cases advanced
          exact ⟨fun member => .inl (discard_members member), id⟩
      · cases advanced
        exact ⟨.inl, id⟩
      · cases advanced
        exact ⟨.inl, silent rfl⟩
  | @answer answer _ answered =>
    rcases answer_cases answer with ⟨message, rfl⟩ | rfl | rfl
    · cases phase <;> cases answered <;> exact ⟨.inl, silent rfl⟩
    · cases phase with
      | idle | sending | marking | pruning | storing => cases answered
      | receiving => cases answered; exact ⟨.inl, silent rfl⟩
      | asking goal => cases answered; exact ⟨.inl, id⟩
      | offering registration =>
        simp only [Phase.answered, Phase.returned] at answered
        split at answered <;> cases answered <;> exact ⟨.inl, id⟩
    · cases phase with
      | idle | sending | marking | pruning | storing => cases answered
      | receiving | offering => cases answered; exact ⟨.inl, silent rfl⟩
      | asking goal => cases answered; exact ⟨fun member => .inl (discard_members member), id⟩

theorem Knows.step {action : Action ι M} (knows : Knows good before) (stepped : step action before = some after)
    (kind : ∀ thread registration, action = .call thread (.listen registration) → good registration) :
    Knows good after := by
  obtain ⟨thread, request, rfl, idle, began⟩ | ⟨thread, current, heard, effect, _, opened, moves, rfl⟩ :=
    step_cases stepped
  · obtain ⟨lock, registered, _, _, ⟨calls, phase, started, rfl⟩ | ⟨notifier, outcome, started, rfl⟩⟩ :=
      begin_cases began
    · refine ⟨knows.table, ?_⟩
      intro other registration subject
      by_cases own : other = thread
      · subst own
        simp only [Function.update_self] at subject
        apply kind other registration
        cases request <;> cases opened : before.notifier <;> rw [opened] at started <;> cases started <;>
          cases subject
        rfl
      · simp only [Function.update_of_ne own] at subject
        exact knows.subject other registration subject
    · refine ⟨?_, knows.subject⟩
      intro raw opened registration member
      dsimp only at opened
      subst opened
      have same : before.notifier = .opened raw := by
        cases request <;> cases current : before.notifier <;> rw [current] at started <;> cases started
      exact knows.table raw same registration member
  · constructor
    · intro raw same registration member
      cases same
      rcases (moves_members moves).1 member with old | new
      · exact knows.table current opened registration old
      · exact knows.subject thread registration new
    · intro other registration subject
      simp only [State.moved] at subject
      by_cases own : other = thread
      · subst own
        rw [Function.update_self] at subject
        exact knows.subject other registration ((moves_members moves).2 subject)
      · rw [Function.update_of_ne own] at subject
        exact knows.subject other registration subject

omit [VecGrowth] in
theorem Knows.within {messages : List M} (knows : Knows good before)
    (call : before.within thread = some (registration, messages)) : good registration := by
  unfold State.within Phase.within at call
  split at call
  next messages index raw _ opened =>
    obtain ⟨entry, found, same⟩ := Option.map_eq_some_iff.mp call
    cases same
    exact knows.table raw opened _ (List.mem_map_of_mem (List.mem_of_getElem? found))
  next offering _ =>
    cases call
    apply knows.subject thread registration
    rw [offering]
    rfl
  next goal index raw _ opened =>
    obtain ⟨entry, found, same⟩ := Option.map_eq_some_iff.mp call
    cases same
    exact knows.table raw opened _ (List.mem_map_of_mem (List.mem_of_getElem? found))
  · cases call

end Knows

end Nosy.SharedNotifier
