import Nosy.Proofs.SharedNotifierSerial

/-! Nobody who is in a use of a shared notifier ever waits, and each use ends after a
bounded number of its own accesses, whatever the listeners answer and the other
threads do. So the lock is always given back. -/

namespace Nosy.SharedNotifier
open Transition (Reaches Free exec)

variable {ι M : Type}

/-- How many accesses a use may still need: three for each entry it has yet to send
to, two for each one it has yet to ask. -/
def Phase.left (entries : Nat) : Phase ι M → Nat
  | .idle => 0
  | .sending _ index => 3 * (entries - index) + 1
  | .receiving _ index => 3 * (entries - (index + 1)) + 3
  | .marking _ index _ => 3 * (entries - (index + 1)) + 2
  | .offering _ => 2 * entries + 4
  | .pruning _ index => 2 * (entries - index) + 2
  | .asking _ index => 2 * (entries - (index + 1)) + 3
  | .storing _ => 1

def State.left (state : State ι M) (thread : Nat) : Nat :=
  match state.notifier with
  | .opened raw => (state.threads thread).left raw.listeners.length
  | .closed => 0

def Action.moves (thread : Nat) : Action ι M → Bool
  | .call _ _ => false
  | .advance mover | .answer mover _ => mover = thread

def Action.begins (thread : Nat) : Action ι M → Bool
  | .call caller _ => caller = thread
  | .advance _ | .answer _ _ => false

private theorem discard_ahead (index : Nat) (raw : RawNotifier (Registration ι)) :
    (discard index raw).listeners.length - index = raw.listeners.length - (index + 1) := by
  by_cases inside : index < raw.listeners.length
  · have shorter := RetainSwap.swapRemove_length inside
    simp only [discard]
    omega
  · have shorter : (discard index raw).listeners.length ≤ raw.listeners.length := by
      simp only [discard, RetainSwap.swapRemove]
      split <;> simp
    omega

private theorem mark_length (index : Nat) (alive : Bool) (raw : RawNotifier (Registration ι)) :
    (mark index alive raw).listeners.length = raw.listeners.length := by
  simp [mark]

section Moves
variable [VecGrowth] {current : RawNotifier (Registration ι)} {phase : Phase ι M} {heard : List Answer}
  {effect : Effect ι M}

private theorem moves_left (moves : Moves current phase heard effect) :
    effect.phase.left (effect.leaves current).listeners.length < phase.left current.listeners.length := by
  cases moves with
  | advance advanced =>
    cases phase with
    | idle | receiving | offering | asking => cases advanced
    | storing =>
      cases advanced
      simp [Effect.phase, Phase.left]
    | marking messages index alive =>
      cases advanced
      simp only [Effect.phase, Effect.leaves, Phase.left, mark_length]
      omega
    | sending messages index =>
      cases found : current.listeners[index]? with
      | none =>
        simp only [Phase.advance, found] at advanced
        cases advanced
        simp [Effect.phase, Phase.left]
      | some entry =>
        obtain ⟨bound, _⟩ := List.getElem?_eq_some_iff.mp found
        simp only [Phase.advance, found] at advanced
        cases advanced
        simp only [Effect.phase, Effect.leaves, Phase.left]
        omega
    | pruning goal index =>
      cases found : current.listeners[index]? with
      | none =>
        simp only [Phase.advance, found] at advanced
        cases goal <;> cases advanced <;> simp only [Effect.phase, Phase.left] <;> omega
      | some entry =>
        obtain ⟨bound, _⟩ := List.getElem?_eq_some_iff.mp found
        simp only [Phase.advance, found] at advanced
        split at advanced
        all_goals
          cases advanced
          simp only [Effect.phase, Effect.leaves, Phase.left, discard_ahead]
          omega
  | @answer answer _ answered =>
    cases phase with
    | idle | sending | marking | pruning | storing =>
      cases answer <;> simp [Phase.answered, Phase.returned, Phase.panicked] at answered
    | receiving messages index =>
      cases answer <;> cases answered <;> simp only [Effect.phase, Effect.leaves, Phase.left] <;> omega
    | asking goal index =>
      rcases answer_cases answer with ⟨message, rfl⟩ | rfl | rfl
      all_goals
        cases answered
        simp only [Effect.phase, Effect.leaves, Phase.left, discard_ahead]
        omega
    | offering registration =>
      rcases answer_cases answer with ⟨message, rfl⟩ | rfl | rfl
      · cases answered
        simp only [Effect.phase, Phase.left]
        omega
      · simp only [Phase.answered, Phase.returned] at answered
        split at answered
        all_goals
          cases answered
          simp only [Effect.phase, Effect.leaves, Phase.left]
          omega
      · cases answered
        simp only [Effect.phase, Phase.left]
        omega

theorem reads_members (moves : Moves current phase heard effect) (reads : phase.access = some .shared) :
    members (effect.leaves current) = members current := by
  cases moves with
  | advance advanced =>
    cases phase with
    | idle | offering | pruning | asking | storing => cases reads
    | receiving => cases advanced
    | marking messages index alive =>
      cases advanced
      exact members_mark index alive current
    | sending messages index =>
      simp only [Phase.advance] at advanced
      split at advanced <;> cases advanced <;> rfl
  | @answer answer _ answered =>
    cases phase with
    | idle | offering | pruning | asking | storing => cases reads
    | sending | marking => cases answer <;> cases answered
    | receiving messages index => cases answer <;> cases answered <;> rfl

private theorem reads_length (moves : Moves current phase heard effect) (reads : phase.access = some .shared) :
    (effect.leaves current).listeners.length = current.listeners.length := by
  simpa [members] using congrArg List.length (reads_members moves reads)

/-- A method that is not in `receive` can go on, and one that is goes on when `receive`
ends. -/
theorem phase_enabled (current : RawNotifier (Registration ι)) (busy : phase ≠ .idle) :
    (∃ effect, phase.advance current = some effect) ∨
      ∀ answer, ∃ effect, phase.answered current answer = some effect := by
  cases phase with
  | idle => exact absurd rfl busy
  | marking messages index alive => exact .inl ⟨_, rfl⟩
  | storing registration => exact .inl ⟨_, rfl⟩
  | sending messages index =>
    left
    simp only [Phase.advance]
    split <;> exact ⟨_, rfl⟩
  | pruning goal index =>
    left
    simp only [Phase.advance]
    split
    · split <;> exact ⟨_, rfl⟩
    all_goals exact ⟨_, rfl⟩
  | receiving messages index =>
    right
    intro answer
    cases answer <;> exact ⟨_, rfl⟩
  | asking goal index =>
    right
    intro answer
    rcases answer_cases answer with ⟨message, rfl⟩ | rfl | rfl <;> exact ⟨_, rfl⟩
  | offering registration =>
    right
    intro answer
    rcases answer_cases answer with ⟨message, rfl⟩ | rfl | rfl
    · exact ⟨_, rfl⟩
    · simp only [Phase.answered, Phase.returned]
      split <;> exact ⟨_, rfl⟩
    · exact ⟨_, rfl⟩

end Moves

section Runs
variable [VecGrowth] {state after : State ι M} {action : Action ι M} {thread : Nat}

/-- What one step does to the accesses that a thread has left. -/
theorem step_left (valid : Valid state) (stepped : step action state = some after)
    (same : action.begins thread = false) :
    (if action.moves thread then 1 else 0) + after.left thread ≤ state.left thread := by
  obtain ⟨caller, request, rfl, idle, began⟩ | ⟨mover, current, heard, effect, action_, opened, moves, rfl⟩ :=
    step_cases stepped
  · simp only [Action.begins, decide_eq_false_iff_not] at same
    simp only [Action.moves, Bool.false_eq_true, if_false, Nat.zero_add]
    obtain ⟨lock, registered, acquired, _, ⟨calls, phase, _, rfl⟩ | ⟨notifier, outcome, started, rfl⟩⟩ :=
      begin_cases began
    · simp only [State.left, Function.update_of_ne (Ne.symm same)]
      exact Nat.le_refl _
    · cases request <;> cases opened : state.notifier <;> rw [opened] at started <;> cases started <;>
        simp [State.left, opened, Notifier.close]
  · by_cases own : mover = thread
    · subst own
      have moved : action.moves mover = true := by
        rcases action_ with ⟨rfl, _⟩ | ⟨answer, rfl, _⟩ <;> simp [Action.moves]
      have fewer := moves_left moves
      simp only [moved, if_true, State.left, State.moved, opened, Function.update_self]
      omega
    · have moved : action.moves thread = false := by
        rcases action_ with ⟨rfl, _⟩ | ⟨answer, rfl, _⟩ <;> simp [Action.moves, own]
      simp only [moved, Bool.false_eq_true, if_false, Nat.zero_add, State.left, State.moved, opened,
        Function.update_of_ne (Ne.symm own)]
      obtain ⟨inside, _⟩ := moves_access moves
      cases access : (state.threads mover).access with
      | none => exact absurd access inside
      | some kind =>
        cases kind with
        | shared => rw [reads_length moves access]
        | exclusive =>
          have outside := valid.held.others_outside ((valid.held.writer mover).mpr access) (Ne.symm own)
          rw [access_idle outside]
          exact Nat.le_refl _

theorem run_left {actions : List (Action ι M)} (valid : Valid state) (executed : exec step actions state = some after)
    (same : ∀ action ∈ actions, action.begins thread = false) :
    actions.countP (Action.moves thread) + after.left thread ≤ state.left thread := by
  induction actions generalizing state with
  | nil =>
    cases executed
    simp
  | cons action rest ih =>
    obtain ⟨middle, stepped, later⟩ := Option.bind_eq_some_iff.mp executed
    have first := step_left valid stepped (same action (by simp))
    have others := ih (valid.step stepped) later (fun action member => same action (by simp [member]))
    rw [List.countP_cons]
    omega

private theorem left_idle (valid : Valid state) (none : state.left thread = 0) : state.threads thread = .idle := by
  by_contra busy
  obtain ⟨raw, opened⟩ := valid.is_open busy
  cases phase : state.threads thread with
  | idle => exact busy phase
  | sending | receiving | marking | offering | pruning | asking | storing =>
    simp [State.left, opened, phase, Phase.left] at none

private theorem idle_free (valid : Valid state) (idle : ∀ thread, state.threads thread = .idle) : state.lock = .free := by
  apply valid.held.unheld
  intro thread
  rw [idle thread]
  rfl

omit [VecGrowth] in
theorem Booked.enters {request : Request ι M} (booked : Booked state)
    (enrolled : (request.enroll state.registered).isSome) :
    (∃ after, state.begin thread request = some after) ∨ ∃ holder, state.threads holder ≠ .idle := by
  obtain ⟨registered, enrolled⟩ := Option.isSome_iff_exists.mp enrolled
  cases acquired : request.acquire thread state.lock with
  | some lock =>
    left
    simp only [State.begin, acquired, enrolled]
    split <;> exact ⟨_, rfl⟩
  | none =>
    right
    have refused : state.lock.read thread = none ∨ state.lock.write thread = none := by
      unfold Request.acquire at acquired
      split at acquired
      · exact .inl acquired
      · exact .inr acquired
    obtain ⟨holder, inside⟩ := booked.held.occupied refused
    refine ⟨holder, ?_⟩
    intro idle
    rw [idle] at inside
    exact inside rfl

/-- Whoever is in a use can go on at once, or as soon as the listener it calls
returns or panics. In any run, however many other uses go on beside it, the use has
ended once its thread has made the accesses it had left. When nobody is in a use, the
lock is free. -/
theorem uses_end (run : Reaches step Free initial state) :
    (∀ thread, state.threads thread ≠ .idle → (∃ after, step (.advance thread) state = some after) ∨
      ∀ answer, ∃ after, step (.answer thread answer) state = some after) ∧
    (∀ thread actions last, exec step actions state = some last →
      (∀ action ∈ actions, action.begins thread = false) →
      actions.countP (Action.moves thread) ≤ state.left thread ∧
        (actions.countP (Action.moves thread) = state.left thread → last.threads thread = .idle)) ∧
    ((∀ thread, state.threads thread = .idle) → state.lock = .free) := by
  have valid := reaches_valid run
  refine ⟨?_, ?_, idle_free valid⟩
  · intro thread busy
    obtain ⟨raw, opened⟩ := valid.is_open busy
    rcases phase_enabled raw busy with ⟨effect, advanced⟩ | answers
    · left
      exact ⟨state.apply thread effect, by simp only [step, opened, advanced, Option.map_some]⟩
    · right
      intro answer
      obtain ⟨effect, answered⟩ := answers answer
      exact ⟨(state.noting thread (.answer answer)).apply thread effect,
        by simp only [step, opened, answered, Option.map_some]⟩
  · intro thread actions last executed same
    have bounded := run_left valid executed same
    refine ⟨by omega, ?_⟩
    intro used
    have later := reaches_valid (run.trans (Transition.exec_reaches executed))
    exact left_idle later (by omega)

omit [VecGrowth] in
theorem uses_end_crossing : ∃ state : State Char Nat, state.left 0 = 5 ∧ state.threads 0 ≠ .idle ∧
    ((∃ after, @step _ _ .usual (.advance 0) state = some after) ∨
      ∀ answer, ∃ after, @step _ _ .usual (.answer 0 answer) state = some after) := by
  have run : ∃ state : State Char Nat,
      exec (@step _ _ .usual) (crossing.take 13) initial = some state ∧ state.left 0 = 5 ∧
        state.threads 0 = .marking [7] 0 false := ⟨_, rfl, rfl, rfl⟩
  obtain ⟨state, executed, five, marking⟩ := run
  have busy : state.threads 0 ≠ .idle := by
    simp [marking]
  exact ⟨state, five, busy, (@uses_end _ _ .usual _ (Transition.exec_reaches executed)).1 0 busy⟩

end Runs

end Nosy.SharedNotifier
