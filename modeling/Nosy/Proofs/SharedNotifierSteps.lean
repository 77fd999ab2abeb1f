import Mathlib.Data.List.Pairwise
import Nosy.SharedNotifier

/-! What a step of a shared notifier can do: begin a use, or move one thread that is
in a use. From it, which thread holds the lock and which use it is in. -/

namespace Nosy.SharedNotifier

variable {ι M : Type}

/-- Answers that have come in since the record was last looked at. -/
def Record.hears (heard : List Answer) (record : Record ι M) : Record ι M :=
  { record with answers := record.answers ++ heard }

/-- The next access of a thread, and what it hears of the call of `receive` it is in. -/
inductive Moves [VecGrowth] (raw : RawNotifier (Registration ι)) (phase : Phase ι M) :
    List Answer → Effect ι M → Prop
  | advance {effect : Effect ι M} : phase.advance raw = some effect → Moves raw phase [] effect
  | answer {answer : Answer} {effect : Effect ι M} : phase.answered raw answer = some effect →
      Moves raw phase [answer] effect

/-- Which thread is in which use. -/
structure Booked (state : State ι M) : Prop where
  held : state.lock.Agrees fun thread => (state.threads thread).access
  working : ∀ thread, state.threads thread ≠ .idle → ∃ record ∈ state.history, record.thread = thread ∧ record.running
  resting : ∀ record ∈ state.history, record.running → state.threads record.thread ≠ .idle
  single : state.history.Pairwise fun earlier later => earlier.running → earlier.thread ≠ later.thread
  ordered : state.history.Pairwise fun earlier later => earlier.running → later.request.sends

theorem access_idle {phase : Phase ι M} (outside : phase.access = none) : phase = .idle := by
  cases phase <;> first | rfl | cases outside

namespace Effect

def phase : Effect ι M → Phase ι M
  | .goes _ phase | .calls _ _ phase => phase
  | .ends _ _ => .idle

def leaves (current : RawNotifier (Registration ι)) : Effect ι M → RawNotifier (Registration ι)
  | .goes after _ | .ends after _ => after
  | .calls .. => current

/-- What becomes of the thread's record. -/
def change (heard : List Answer) (record : Record ι M) : Effect ι M → Record ι M
  | .goes .. => record.hears heard
  | .calls registration messages _ => (record.hears heard).call registration messages
  | .ends _ outcome => (record.hears heard).finish outcome

def lock (thread : Nat) (held : SharedLock Nat) : Effect ι M → SharedLock Nat
  | .goes .. | .calls .. => held
  | .ends .. => held.release thread

theorem change_thread (effect : Effect ι M) (heard : List Answer) (record : Record ι M) :
    (effect.change heard record).thread = record.thread := by cases effect <;> rfl

theorem change_request (effect : Effect ι M) (heard : List Answer) (record : Record ι M) :
    (effect.change heard record).request = record.request := by cases effect <;> rfl

private theorem change_running {effect : Effect ι M} {heard : List Answer} {record : Record ι M}
    (running : (effect.change heard record).running = true) : record.running = true := by
  cases effect <;> first | exact running | cases running

end Effect

/-- The state after a move, field by field. -/
def State.moved (state : State ι M) (thread : Nat) (current : RawNotifier (Registration ι)) (heard : List Answer)
    (effect : Effect ι M) : State ι M where
  lock := effect.lock thread state.lock
  notifier := .opened (effect.leaves current)
  threads := Function.update state.threads thread effect.phase
  registered := state.registered
  history := amend thread (effect.change heard) state.history

private theorem amend_hears_nil (thread : Nat) (history : List (Record ι M)) :
    amend thread (Record.hears []) history = history := by
  have same : ∀ record : Record ι M, record.hears [] = record := by
    intro record
    simp [Record.hears]
  simp [amend, same]

private theorem amend_amend (thread : Nat) (first second : Record ι M → Record ι M) (history : List (Record ι M))
    (kept : ∀ record, (first record).thread = record.thread ∧ (first record).running = record.running) :
    amend thread second (amend thread first history) = amend thread (fun record => second (first record)) history := by
  simp only [amend, List.map_map]
  apply List.map_congr_left
  intro record _
  by_cases here : record.thread = thread ∧ record.running = true
  · simp [here, kept]
  · simp [here]

private theorem apply_moved {state : State ι M} {thread : Nat} {current : RawNotifier (Registration ι)}
    (opened : state.notifier = .opened current) (heard : List Answer) (effect : Effect ι M) :
    (state.noting thread (Record.hears heard)).apply thread effect = state.moved thread current heard effect := by
  have kept : ∀ record : Record ι M,
      (record.hears heard).thread = record.thread ∧ (record.hears heard).running = record.running :=
    fun _ => ⟨rfl, rfl⟩
  cases effect with
  | goes => rfl
  | calls =>
    simp only [State.apply, State.noting, State.moved, Effect.lock, Effect.leaves, Effect.phase, Effect.change, opened]
    rw [amend_amend _ _ _ _ kept]
  | ends =>
    simp only [State.apply, State.noting, State.moved, Effect.lock, Effect.leaves, Effect.phase, Effect.change]
    rw [amend_amend _ _ _ _ kept]

/-- A step begins a use, or moves a thread that is in one. -/
theorem step_cases [VecGrowth] {action : Action ι M} {state after : State ι M} (stepped : step action state = some after) :
    (∃ thread request, action = .call thread request ∧ state.threads thread = .idle ∧
      state.begin thread request = some after) ∨
    ∃ thread current heard effect,
      (action = .advance thread ∧ heard = [] ∨ ∃ answer, action = .answer thread answer ∧ heard = [answer]) ∧
      state.notifier = .opened current ∧ Moves current (state.threads thread) heard effect ∧
      after = state.moved thread current heard effect := by
  cases action with
  | call thread request =>
    simp only [step] at stepped
    split at stepped
    next outside => exact .inl ⟨thread, request, rfl, outside, stepped⟩
    · cases stepped
  | advance thread =>
    simp only [step] at stepped
    split at stepped
    next current opened =>
      obtain ⟨effect, advanced, rfl⟩ := Option.map_eq_some_iff.mp stepped
      refine .inr ⟨thread, current, [], effect, .inl ⟨rfl, rfl⟩, opened, .advance advanced, ?_⟩
      rw [← apply_moved opened, State.noting, amend_hears_nil]
    · cases stepped
  | answer thread answer =>
    simp only [step] at stepped
    split at stepped
    next current opened =>
      obtain ⟨effect, answered, rfl⟩ := Option.map_eq_some_iff.mp stepped
      exact .inr ⟨thread, current, [answer], effect, .inr ⟨answer, rfl, rfl⟩, opened, .answer answered,
        apply_moved opened [answer] effect⟩
    · cases stepped

/-- A thread inside the lock stays inside, with the same access, until it ends. -/
theorem moves_access [VecGrowth] {current : RawNotifier (Registration ι)} {phase : Phase ι M} {heard : List Answer}
    {effect : Effect ι M} (moves : Moves current phase heard effect) :
    phase.access ≠ none ∧ (effect.phase.access = phase.access ∨ ∃ after outcome, effect = .ends after outcome) := by
  cases moves with
  | advance advanced =>
    cases phase with
    | idle | receiving | offering | asking => cases advanced
    | marking | storing =>
      cases advanced
      simp [Effect.phase, Phase.access]
    | sending messages index =>
      simp only [Phase.advance] at advanced
      split at advanced <;> cases advanced <;> simp [Effect.phase, Phase.access]
    | pruning goal index =>
      simp only [Phase.advance] at advanced
      split at advanced
      · split at advanced <;> cases advanced <;> simp [Effect.phase, Phase.access]
      all_goals cases advanced; simp [Effect.phase, Phase.access]
  | @answer answer _ answered =>
    cases answer with
    | error message =>
      cases phase <;> cases answered <;> simp [Phase.access]
    | ok alive =>
      cases phase with
      | idle | sending | marking | pruning | storing =>
        simp [Phase.answered, Phase.returned] at answered
      | receiving =>
        cases answered
        simp [Effect.phase, Phase.access]
      | offering registration =>
        cases alive with
        | false => cases answered; simp [Phase.access]
        | true =>
          simp only [Phase.answered, Phase.returned] at answered
          split at answered <;> cases answered <;> simp [Effect.phase, Phase.access]
      | asking goal index => cases alive <;> cases answered <;> simp [Effect.phase, Phase.access]

theorem access_update (threads : Nat → Phase ι M) (thread : Nat) (phase : Phase ι M) :
    (fun other => (Function.update threads thread phase other).access) =
      Function.update (fun other => (threads other).access) thread phase.access := by
  funext other
  by_cases same : other = thread
  · simp [same]
  · simp [same]

section Amended
variable {thread : Nat} {heard : List Answer} {effect : Effect ι M} {record : Record ι M}

/-- A record after a move of `thread`. -/
private def amended (thread : Nat) (change : Record ι M → Record ι M) (record : Record ι M) : Record ι M :=
  if record.thread = thread ∧ record.running then change record else record

private theorem amended_thread : (amended thread (effect.change heard) record).thread = record.thread := by
  unfold amended
  split
  · exact effect.change_thread heard record
  · rfl

private theorem amended_request : (amended thread (effect.change heard) record).request = record.request := by
  unfold amended
  split
  · exact effect.change_request heard record
  · rfl

private theorem amended_running (running : (amended thread (effect.change heard) record).running = true) :
    record.running = true := by
  unfold amended at running
  split at running
  · exact Effect.change_running running
  · exact running

end Amended

private theorem mem_amend {thread : Nat} {change : Record ι M → Record ι M} {record : Record ι M}
    {history : List (Record ι M)}
    (member : record ∈ history) (other : ¬ (record.thread = thread ∧ record.running = true)) :
    record ∈ amend thread change history :=
  List.mem_map.mpr ⟨record, member, by simp [other]⟩

theorem Booked.moved [VecGrowth] {state : State ι M} {thread : Nat} {current : RawNotifier (Registration ι)}
    {heard : List Answer} {effect : Effect ι M} (booked : Booked state)
    (moves : Moves current (state.threads thread) heard effect) :
    Booked (state.moved thread current heard effect) := by
  obtain ⟨inside, access⟩ := moves_access moves
  have busy : state.threads thread ≠ .idle := by
    intro idle
    simp [idle, Phase.access] at inside
  have running : ∀ record : Record ι M, record.running = true → (effect.change heard record).running = true →
      effect.phase ≠ .idle := by
    intro record _ still idle
    rcases access with access | ⟨after, outcome, rfl⟩
    · rw [idle] at access
      exact inside access.symm
    · cases still
  constructor
  · simp only [State.moved, access_update]
    cases effect with
    | goes _ phase | calls _ _ phase =>
      rcases access with access | ⟨_, _, wrong⟩
      · rw [access, Function.update_eq_self]
        exact booked.held
      · cases wrong
    | ends => exact booked.held.release
  · intro other active
    simp only [State.moved] at active ⊢
    by_cases same : other = thread
    · subst other
      rw [Function.update_self] at active
      obtain ⟨record, member, owner, going⟩ := booked.working thread busy
      refine ⟨effect.change heard record, List.mem_map.mpr ⟨record, member, by simp [owner, going]⟩, ?_, ?_⟩
      · rw [effect.change_thread, owner]
      · cases effect <;> first | exact going | exact absurd rfl active
    · rw [Function.update_of_ne same] at active
      obtain ⟨record, member, owner, going⟩ := booked.working other active
      refine ⟨record, mem_amend member ?_, owner, going⟩
      intro here
      exact same (owner.symm.trans here.1)
  · intro record member going
    simp only [State.moved] at member ⊢
    obtain ⟨old, present, rfl⟩ := List.mem_map.mp member
    split at going
    next here =>
      simp only [here, and_self, if_true, effect.change_thread, Function.update_self]
      exact running old here.2 going
    next elsewhere =>
      simp only [elsewhere, if_false]
      rw [Function.update_of_ne]
      · exact booked.resting old present going
      · intro same
        exact elsewhere ⟨same, going⟩
  · apply List.Pairwise.map (amended thread (effect.change heard)) _ booked.single
    intro earlier later apart first
    rw [amended_thread, amended_thread]
    exact apart (amended_running first)
  · apply List.Pairwise.map (amended thread (effect.change heard)) _ booked.ordered
    intro earlier later apart first
    rw [amended_request]
    exact apart (amended_running first)

/-- The record of what a thread is doing, and no other running one of that thread. -/
structure Located (history : List (Record ι M)) (thread : Nat) (earlier : List (Record ι M)) (record : Record ι M)
    (later : List (Record ι M)) : Prop where
  split : history = earlier ++ record :: later
  owner : record.thread = thread
  running : record.running = true
  others : ∀ other ∈ earlier ++ later, ¬ (other.thread = thread ∧ other.running = true)

theorem Booked.locate {state : State ι M} {thread : Nat} (booked : Booked state)
    (busy : state.threads thread ≠ .idle) : ∃ earlier record later, Located state.history thread earlier record later := by
  obtain ⟨record, member, owner, running⟩ := booked.working thread busy
  obtain ⟨earlier, later, split⟩ := List.append_of_mem member
  refine ⟨earlier, record, later, split, owner, running, ?_⟩
  have single := booked.single
  rw [split, List.pairwise_append, List.pairwise_cons] at single
  obtain ⟨_, ⟨after, _⟩, before⟩ := single
  intro other member here
  rcases List.mem_append.mp member with member | member
  · exact before other member record (by simp) here.2 (here.1.trans owner.symm)
  · exact after other member running (owner.trans here.1.symm)

theorem Located.amend {history earlier later : List (Record ι M)} {thread : Nat} {record : Record ι M}
    (located : Located history thread earlier record later) (change : Record ι M → Record ι M) :
    amend thread change history = earlier ++ change record :: later := by
  have unchanged : ∀ records : List (Record ι M),
      (∀ other ∈ records, ¬ (other.thread = thread ∧ other.running = true)) →
      records.map (amended thread change) = records := by
    intro records others
    conv_rhs => rw [← List.map_id records]
    apply List.map_congr_left
    intro other member
    exact if_neg (others other member)
  have here : amended thread change record = change record := by simp [amended, located.owner, located.running]
  show history.map (amended thread change) = _
  rw [located.split, List.map_append, List.map_cons, here, unchanged earlier, unchanged later]
  · intro other member
    exact located.others other (by simp [member])
  · intro other member
    exact located.others other (by simp [member])

theorem acquire_cases {request : Request ι M} {thread : Nat} {lock after : SharedLock Nat}
    {holds : Nat → Option Access} (agrees : lock.Agrees holds) (acquired : request.acquire thread lock = some after) :
    lock.writer = none ∧
      if request.sends then after.Agrees (Function.update holds thread (some .shared)) ∧ after.writer = none
      else after.Agrees (Function.update holds thread (some .exclusive)) ∧ lock.readers = ∅ ∧
        after.writer = some thread := by
  unfold Request.acquire at acquired
  split at acquired
  next reading =>
    obtain ⟨nobody, rfl⟩ := SharedLock.read_some acquired
    exact ⟨nobody, by simpa [reading, nobody] using agrees.read acquired⟩
  next writing =>
    obtain ⟨nobody, empty, rfl⟩ := SharedLock.write_some acquired
    exact ⟨nobody, by simpa [writing, empty] using agrees.write acquired⟩

/-- A method that gets the lock of an open notifier keeps it, unless it closes it. -/
theorem start_enters {request : Request ι M} {notifier : Notifier (Registration ι)}
    {calls : List (Registration ι × List M)} {phase : Phase ι M} (started : request.start notifier = .enters calls phase) :
    (∃ raw, notifier = .opened raw) ∧
      phase.access = some (if request.sends then .shared else .exclusive) := by
  cases request <;> cases notifier <;> cases started <;> exact ⟨⟨_, rfl⟩, rfl⟩

theorem begin_cases {state after : State ι M} {thread : Nat} {request : Request ι M}
    (began : state.begin thread request = some after) :
    ∃ lock registered, request.acquire thread state.lock = some lock ∧
      request.enroll state.registered = some registered ∧
      ((∃ calls phase, request.start state.notifier = .enters calls phase ∧
        after = { state with
          lock, registered
          threads := Function.update state.threads thread phase
          history := state.history ++ [⟨thread, request, calls, [], none⟩] }) ∨
        ∃ notifier outcome, request.start state.notifier = .passes notifier outcome ∧
          after = { state with
            notifier, registered
            history := state.history ++ [⟨thread, request, [], [], some outcome⟩] }) := by
  unfold State.begin at began
  split at began
  next lock registered acquired enrolled =>
    refine ⟨lock, registered, acquired, enrolled, ?_⟩
    split at began
    next calls phase started =>
      cases began
      exact .inl ⟨calls, phase, started, rfl⟩
    next notifier outcome started =>
      cases began
      exact .inr ⟨notifier, outcome, started, rfl⟩
  · cases began

theorem Booked.append {state after : State ι M} {record : Record ι M} (booked : Booked state)
    (idle : state.threads record.thread = .idle)
    (history : after.history = state.history ++ [record])
    (held : after.lock.Agrees fun thread => (after.threads thread).access)
    (elsewhere : ∀ thread, thread ≠ record.thread → after.threads thread = state.threads thread)
    (going : record.running = true ↔ after.threads record.thread ≠ .idle)
    (sends : record.request.sends = true ∨ ∀ other ∈ state.history, other.running = false) : Booked after := by
  have apart : ∀ other ∈ state.history, other.running = true → other.thread ≠ record.thread := by
    intro other member running same
    exact booked.resting other member running (same ▸ idle)
  constructor
  · exact held
  · intro thread busy
    rw [history]
    by_cases same : thread = record.thread
    · subst same
      exact ⟨record, by simp, rfl, going.mpr busy⟩
    · rw [elsewhere thread same] at busy
      obtain ⟨other, member, owner, running⟩ := booked.working thread busy
      exact ⟨other, by simp [member], owner, running⟩
  · intro other member running
    rw [history, List.mem_append, List.mem_singleton] at member
    rcases member with member | rfl
    · rw [elsewhere _ (apart other member running)]
      exact booked.resting other member running
    · exact going.mp running
  · rw [history, List.pairwise_append]
    refine ⟨booked.single, List.pairwise_singleton _ _, ?_⟩
    intro other member last same running
    rw [List.mem_singleton] at same
    subst last
    exact apart other member running
  · rw [history, List.pairwise_append]
    refine ⟨booked.ordered, List.pairwise_singleton _ _, ?_⟩
    intro other member last same running
    rw [List.mem_singleton] at same
    subst last
    rcases sends with sends | finished
    · exact sends
    · simp [finished other member] at running

/-- Nobody is in the lock when a writer gets it. -/
theorem Booked.all_finished {state : State ι M} (booked : Booked state) (nobody : state.lock.writer = none)
    (empty : state.lock.readers = ∅) : ∀ record ∈ state.history, record.running = false := by
  intro record member
  have outside : (state.threads record.thread).access = none := booked.held.outside nobody empty
  rw [← Bool.not_eq_true]
  intro running
  exact booked.resting record member running (access_idle outside)

/-- What `listen` is called with. -/
def Request.offers : Request ι M → Option (Registration ι)
  | .listen registration => some registration
  | _ => none

def offered (history : List (Record ι M)) : List (Registration ι) :=
  history.filterMap fun record => record.request.offers

/-- Registrations are numbered in the order of the history. -/
def Numbered (state : State ι M) : Prop := (offered state.history).map (·.number) = List.range state.registered

private theorem enroll_numbers {request : Request ι M} {before after : Nat}
    (enrolled : request.enroll before = some after) :
    List.range after = List.range before ++ request.offers.toList.map (·.number) := by
  cases request with
  | listen registration =>
    simp only [Request.enroll] at enrolled
    split at enrolled
    next same =>
      cases enrolled
      simp [List.range_succ, Request.offers, same]
    · cases enrolled
  | notifyMany | count | close =>
    cases enrolled
    simp [Request.offers]

theorem Numbered.step [VecGrowth] {action : Action ι M} {state after : State ι M} (numbered : Numbered state)
    (stepped : step action state = some after) : Numbered after := by
  have append : ∀ record : Record ι M, offered (state.history ++ [record]) =
      offered state.history ++ record.request.offers.toList := by
    intro record
    cases offers : record.request.offers <;> simp [offered, offers]
  unfold Numbered at numbered ⊢
  obtain ⟨thread, request, rfl, idle, began⟩ | ⟨thread, current, heard, effect, _, opened, moves, rfl⟩ :=
    step_cases stepped
  · obtain ⟨lock, registered, _, enrolled, ⟨calls, phase, _, rfl⟩ | ⟨notifier, outcome, _, rfl⟩⟩ := begin_cases began
    all_goals
      dsimp only
      rw [append, List.map_append, numbered, enroll_numbers enrolled]
  · have same : offered (amend thread (effect.change heard) state.history) = offered state.history := by
      show List.filterMap _ (state.history.map (amended thread (effect.change heard))) = _
      rw [List.filterMap_map]
      apply List.filterMap_congr
      intro record _
      simp only [Function.comp_apply, amended_request]
    simp only [State.moved, same, numbered]

end Nosy.SharedNotifier
