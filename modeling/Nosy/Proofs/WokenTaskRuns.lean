import Nosy.Proofs.WokenTask

/-! Whole runs of a task woken through a `WakeFlag`: it never sleeps on an input it
has not read, and it ends when its inputs do. What the flag itself cannot promise
between threads, it can where the task and the writers share one. -/

namespace Nosy.WakeFlag

@[simp] theorem wake_notifying (state : State) : state.wake.notifying = state.notifying := by
  unfold State.wake
  split <;> rfl

end Nosy.WakeFlag

namespace Nosy.WokenTask
open Transition
open WakeFlag (Poll)

section
variable {V W : Type} [BEq W] {inputs : List Nat} {compute : List V → W}
variable {action : Action V} {state after last : State V W} {flag : WakeFlag.State}

/-- The accesses of the task from the start of a poll on, once every input is gone. -/
def turn (inputs : List Nat) (flag : WakeFlag.State) : Nat := if flag.notified then inputs.length + 5 else 2

/-- The accesses that the task still makes, once every input is gone. -/
def State.remaining (inputs : List Nat) (state : State V W) : Nat :=
  match state.task, state.flag.task with
  | .exited, _ => 0
  | .announcing, _ => 1 + turn inputs state.flag
  | .reading _ rest, _ => rest.length + 2 + turn inputs state.flag
  | .waiting, .counting _ => 1
  | .waiting, .registering => 1 + turn inputs state.flag
  | .waiting, _ => turn inputs state.flag

omit [BEq W] in
private theorem turn_le (inputs : List Nat) (flag : WakeFlag.State) : turn inputs flag ≤ inputs.length + 5 := by
  unfold turn
  split <;> omega

private theorem remaining_le (valid : Valid inputs compute state) : state.remaining inputs ≤ 2 * inputs.length + 7 := by
  have bound := turn_le inputs state.flag
  have based := valid.based
  cases task : state.task with
  | exited => simp [State.remaining, task]
  | announcing =>
    simp only [State.remaining, task]
    omega
  | reading got rest =>
    rw [task] at based
    obtain ⟨done, split, _⟩ := based
    have length := congrArg List.length split
    rw [List.length_append] at length
    simp only [State.remaining, task]
    omega
  | waiting =>
    simp only [State.remaining, task]
    split <;> first | omega | simp_all

/-- Every input's `Cell` is gone, and its listener with it. -/
structure Gone (state : State V W) : Prop where
  alive : state.flag.alive = ∅
  dropping : state.flag.dropping = ∅

omit [BEq W] in
theorem gone_iff : Gone state ↔ state.flag.strongCount = 0 := by
  constructor
  · intro gone
    simp [WakeFlag.State.strongCount, gone.alive, gone.dropping]
  · intro none
    obtain ⟨alive, dropping⟩ := Nat.add_eq_zero_iff.mp none
    exact ⟨Finset.card_eq_zero.mp alive, Finset.card_eq_zero.mp dropping⟩

private theorem gone_quiet (valid : Valid inputs compute state) (gone : Gone state) : state.Quiet := by
  have nobody {users : List Nat} (held : ∀ input ∈ users, input ∈ state.flag.alive) : users = [] := by
    rw [gone.alive] at held
    exact List.eq_nil_iff_forall_not_mem.mpr fun input member => absurd (held input member) (Finset.notMem_empty _)
  exact ⟨nobody valid.replaced, nobody valid.receiving, gone.dropping⟩

omit [BEq W] in
private theorem polled_remaining {access : WakeFlag.Action} (polls : action.polls = some access)
    (waiting : state.task = .waiting)
    (gone : Gone state) (moved : WakeFlag.step access state.flag = some flag) :
    ({ state with flag, task := resume inputs (WakeFlag.returned access flag) } : State V W).remaining inputs <
      state.remaining inputs := by
  have none := gone_iff.mp gone
  cases WakeFlag.step_cases moved with
  | swapFirst idle | swapSecond idle =>
    by_cases told : state.flag.notified = true
    · simp [WakeFlag.State.swapNotified, told, WakeFlag.returned, resume, State.remaining, waiting, idle, turn]
    · simp [WakeFlag.State.swapNotified, told, WakeFlag.returned, resume, State.remaining, waiting, idle, turn]
  | readCount counting =>
    simp [WakeFlag.State.readCount, none, WakeFlag.returned, resume, State.remaining, waiting, counting]
  | register registering =>
    simp [WakeFlag.returned, resume, State.remaining, waiting, registering, turn]
  | receiveStore | receiveWake | notifyStore | notifyWake | clone | dropWake | dropRelease =>
    cases action <;> cases polls

omit [BEq W] in
/-- Nothing is stored between the two reads of a poll that nobody interrupts. -/
private theorem polled_clear {access : WakeFlag.Action} {before : WakeFlag.State} (polls : action.polls = some access)
    (clear : ∀ round, before.task = .counting round → before.notified = false)
    (moved : WakeFlag.step access before = some flag) :
    (∀ round, flag.task = .counting round → flag.notified = false) ∧
      (WakeFlag.returned access flag = some (.ready false) → flag.notified = false) := by
  cases WakeFlag.step_cases moved with
  | swapFirst | swapSecond =>
    by_cases told : before.notified = true
    · simp [WakeFlag.State.swapNotified, told, WakeFlag.returned]
    · simp [WakeFlag.State.swapNotified, told, WakeFlag.returned]
  | @readCount round counting =>
    unfold WakeFlag.State.readCount
    split
    · simp [clear round counting]
    · cases round <;> simp [WakeFlag.returned]
  | register => simp [WakeFlag.returned]
  | receiveStore | receiveWake | notifyStore | notifyWake | clone | dropWake | dropRelease =>
    cases action <;> cases polls

/-- What holds as long as one thread runs everything. -/
structure Ordered (state : State V W) : Prop where
  flag : WakeFlag.Valid state.flag
  turn : state.Quiet ∨ state.Parked
  counting : ∀ round, state.flag.task = .counting round → state.flag.notified = false
  ended : state.task = .exited → state.flag.notified = false

omit [BEq W] in
private theorem polled_ordered {access : WakeFlag.Action} (ordered : Ordered state) (quiet : state.Quiet)
    (polls : action.polls = some access) (moved : WakeFlag.step access state.flag = some flag) :
    Ordered ({ state with flag, task := resume inputs (WakeFlag.returned access flag) } : State V W) := by
  obtain ⟨_, receiving, dropping, _⟩ := polled_cases inputs polls moved
  obtain ⟨counting, ended⟩ := polled_clear polls ordered.counting moved
  constructor
  · refine WakeFlag.step_valid ?_ moved ordered.flag
    intro _ _ _ left
    rw [quiet.dropped] at left
    cases left with | intro _ member => cases member
  · exact .inl ⟨quiet.replaced, receiving.trans quiet.received, dropping.trans quiet.dropped⟩
  · exact counting
  · intro exited
    apply ended
    unfold resume at exited
    split at exited
    · cases exited
    next last => exact last
    · cases exited
    · cases exited

omit [BEq W] in
private theorem sent_ordered {sending : WakeFlag.Action} (ordered : Ordered state) (parked : state.Parked)
    (sends : action.sends = some sending) (moved : WakeFlag.step sending state.flag = some flag) :
    Ordered ({ state with flag } : State V W) := by
  obtain ⟨task, notified, _, _⟩ := sent_cases sends moved
  constructor
  · refine WakeFlag.step_valid ?_ moved ordered.flag
    rintro rfl
    cases action <;> cases sends
  · right
    unfold State.Parked
    rw [task]
    exact parked
  · intro round counting
    rw [task] at counting
    rw [notified]
    exact ordered.counting round counting
  · intro exited
    rw [notified]
    exact ordered.ended exited

private theorem stored_ordered {input : Nat} (valid : Valid inputs compute state) (ordered : Ordered state)
    (due : input ∈ state.replaced) (moved : WakeFlag.step (.receiveStore input) state.flag = some flag) :
    Ordered ({ state with replaced := state.replaced.erase input, flag } : State V W) := by
  have parked : state.Parked := by
    rcases ordered.turn with quiet | parked
    · rw [quiet.replaced] at due
      cases due
    · exact parked
  have present := valid.replaced input due
  have sound : WakeFlag.Valid flag := by
    refine WakeFlag.step_valid ?_ moved ordered.flag
    rintro ⟨⟩
  simp only [WakeFlag.step, if_pos present, Option.some.injEq] at moved
  subst moved
  constructor
  · exact sound
  · exact .inr parked
  · intro round counting
    rcases parked with exited | ⟨_, idle | idle⟩
    · obtain ⟨last, idle⟩ := valid.outside (by simp [exited])
      rw [idle] at counting
      cases counting
    · rw [idle] at counting
      cases counting
    · rw [idle] at counting
      cases counting
  · intro exited
    have gone := gone_iff.mpr (valid.ended exited)
    rw [gone.alive] at present
    cases present

omit [BEq W] in
/-- A listener's call is begun only while the task is parked, and it parks no one. -/
private theorem sent_parked {sending : WakeFlag.Action} (ordered : Ordered state) (permitted : Cooperative action state)
    (sends : action.sends = some sending) (moved : WakeFlag.step sending state.flag = some flag) : state.Parked := by
  rcases ordered.turn with quiet | parked
  · cases action with
    | wake input =>
      cases sends
      simp [WakeFlag.step, quiet.received] at moved
    | dropWake input => exact permitted.2
    | dropRelease input =>
      cases sends
      simp [WakeFlag.step, quiet.dropped] at moved
    | _ => cases sends
  · exact parked

omit [BEq W] in
private theorem busy_ordered (ordered : Ordered state) (quiet : state.Quiet) (same : after.flag = state.flag)
    (replaced : after.replaced = state.replaced) (running : after.task ≠ .exited) : Ordered after := by
  constructor
  · rw [same]
    exact ordered.flag
  · left
    constructor
    · rw [replaced]
      exact quiet.replaced
    · rw [same]
      exact quiet.received
    · rw [same]
      exact quiet.dropped
  · rw [same]
    exact ordered.counting
  · intro exited
    exact absurd exited running

omit [BEq W] in
private theorem initial_ordered (values : Nat → V) (output : W) : Ordered (initial inputs values output) := by
  constructor
  · constructor <;> simp [initial, WakeFlag.initial]
  · exact .inl ⟨rfl, rfl, rfl⟩
  · intro round counting
    cases counting
  · intro exited
    cases exited

variable [BEq V]

theorem step_remaining (valid : Valid inputs compute state) (gone : Gone state)
    (stepped : step inputs compute action state = some after) :
    Gone after ∧ after.remaining inputs < state.remaining inputs := by
  have quiet := gone_quiet valid gone
  cases step_cases stepped with
  | polled polls waiting moved =>
    obtain ⟨alive, _, dropping, _⟩ := polled_cases inputs polls moved
    exact ⟨⟨alive.trans gone.alive, dropping.trans gone.dropping⟩, polled_remaining polls waiting gone moved⟩
  | sent sends _ moved => exact absurd (gone_iff.mp gone) (sent_counted sends valid.receiving moved)
  | stored due =>
    rw [quiet.replaced] at due
    cases due
  | read reading =>
    refine ⟨⟨gone.alive, gone.dropping⟩, ?_⟩
    simp [State.remaining, reading]
  | @wrote got reading =>
    obtain ⟨same, _, _, resting, _⟩ := @write_cases _ _ _ compute state got
    have idle := valid.outside (by simp [reading])
    refine ⟨⟨same ▸ gone.alive, same ▸ gone.dropping⟩, ?_⟩
    obtain ⟨last, idle⟩ := idle
    rcases resting with task | task
    all_goals
      simp only [State.remaining, task, reading, same, idle, List.length_nil]
      omega
  | announced announcing =>
    obtain ⟨last, idle⟩ := valid.outside (by simp [announcing])
    refine ⟨⟨gone.alive, gone.dropping⟩, ?_⟩
    simp [State.remaining, announcing, idle]
  | put _ present =>
    rw [gone.alive] at present
    cases present
  | same _ someone =>
    rw [gone.alive] at someone
    cases someone with | intro _ member => cases member

theorem run_remaining {actions : List (Action V)} (valid : Valid inputs compute state) (gone : Gone state)
    (run : exec (step inputs compute) actions state = some last) :
    Gone last ∧ actions.length + last.remaining inputs ≤ state.remaining inputs := by
  induction actions generalizing state with
  | nil =>
    cases run
    exact ⟨gone, by simp⟩
  | cons action rest ih =>
    obtain ⟨next, stepped, later⟩ := Option.bind_eq_some_iff.mp run
    obtain ⟨still, less⟩ := step_remaining valid gone stepped
    obtain ⟨ended, bound⟩ := ih (step_valid valid stepped) still later
    refine ⟨ended, ?_⟩
    rw [List.length_cons]
    omega

private theorem task_goes_on (quiet : state.Quiet) (running : state.task ≠ .exited) :
    ∃ action after, Cooperative action state ∧ step inputs compute action state = some after := by
  have goes {action : Action V} (permitted : Cooperative action state)
      (enabled : (step inputs compute action state).isSome) :
      ∃ action after, Cooperative action state ∧ step inputs compute action state = some after := by
    obtain ⟨after, stepped⟩ := Option.isSome_iff_exists.mp enabled
    exact ⟨action, after, permitted, stepped⟩
  cases task : state.task with
  | exited => exact absurd task running
  | announcing => exact @goes .announce quiet (by simp [step, task])
  | reading got rest =>
    cases rest with
    | nil => exact @goes .write quiet (by simp [step, task])
    | cons input rest => exact @goes .read quiet (by simp [step, task])
  | waiting =>
    cases inside : state.flag.task with
    | idle last => exact @goes .swap quiet (by simp [step, State.poll, WakeFlag.step, task, inside])
    | counting round => exact @goes .readCount quiet (by simp [step, State.poll, WakeFlag.step, task, inside])
    | registering => exact @goes .register quiet (by simp [step, State.poll, WakeFlag.step, task, inside])
    | swapping => exact @goes .swap quiet (by simp [step, State.poll, WakeFlag.step, task, inside])

/-- Every run from here is short, and goes on unless the loop has ended. -/
def Finishes (inputs : List Nat) (compute : List V → W) (allowed : Action V → State V W → Prop) (state : State V W) : Prop :=
  ∀ actions last, exec (step inputs compute) actions state = some last →
    actions.length ≤ 2 * inputs.length + 7 ∧
      (last.task = .exited ∨ ∃ action after, allowed action last ∧ step inputs compute action last = some after)

private theorem gone_finishes {allowed : Action V → State V W → Prop}
    (weaker : ∀ action state, Cooperative action state → allowed action state)
    (valid : Valid inputs compute state) (gone : Gone state) : Finishes inputs compute allowed state := by
  intro actions last run
  obtain ⟨still, bound⟩ := run_remaining valid gone run
  constructor
  · have start := remaining_le valid
    omega
  · have ended : Valid inputs compute last :=
      (exec_reaches run).invariant (fun _ _ _ _ stepped valid => step_valid valid stepped) valid
    by_cases exited : last.task = .exited
    · exact .inl exited
    · obtain ⟨action, after, permitted, stepped⟩ := task_goes_on (gone_quiet ended still) exited
      exact .inr ⟨action, after, weaker action last permitted, stepped⟩

theorem step_silent (stepped : step inputs compute action state = some after)
    (silent : state.flag.notifying = 0) : after.flag.notifying = 0 := by
  rcases step_flag stepped with ⟨access, own, moved⟩ | same
  · generalize after.flag = flag at moved
    cases WakeFlag.step_cases moved with
    | swapFirst | swapSecond =>
      unfold WakeFlag.State.swapNotified
      split <;> exact silent
    | @readCount round =>
      unfold WakeFlag.State.readCount
      split
      · exact silent
      · cases round <;> exact silent
    | notifyStore => exact absurd rfl own
    | notifyWake due => exact absurd silent (Nat.ne_of_gt due)
    | receiveWake | dropWake =>
      rw [WakeFlag.wake_notifying]
      exact silent
    | register | receiveStore | clone | dropRelease => exact silent
  · rw [same]
    exact silent

theorem step_ordered (valid : Valid inputs compute state) (ordered : Ordered state)
    (permitted : Cooperative action state) (stepped : step inputs compute action state = some after) :
    Ordered after := by
  cases step_cases stepped with
  | polled polls _ moved =>
    have quiet : state.Quiet := by
      cases action with
      | swap | readCount | register => exact permitted
      | _ => cases polls
    exact polled_ordered ordered quiet polls moved
  | sent sends _ moved => exact sent_ordered ordered (sent_parked ordered permitted sends moved) sends moved
  | stored due moved => exact stored_ordered valid ordered due moved
  | read => exact busy_ordered ordered permitted rfl rfl (by simp)
  | @wrote got =>
    obtain ⟨same, _, replaced, resting, _⟩ := @write_cases _ _ _ compute state got
    refine busy_ordered ordered permitted same replaced ?_
    rcases resting with task | task <;> simp [task]
  | announced => exact busy_ordered ordered permitted rfl rfl (by simp)
  | put sets =>
    have parked : state.Parked := by
      cases action with
      | set | setIfUnequal => exact permitted.2
      | _ => cases sets
    exact ⟨ordered.flag, .inr parked, ordered.counting, ordered.ended⟩
  | same => exact ordered

theorem run_silent {allowed : Action V → State V W → Prop} {values : Nat → V} {output : W}
    (run : Reaches (step inputs compute) allowed (initial inputs values output) state) : state.flag.notifying = 0 :=
  run.invariant (fun _ _ _ _ stepped silent => step_silent stepped silent) rfl

theorem run_ordered {values : Nat → V} {output : W}
    (run : Reaches (step inputs compute) Cooperative (initial inputs values output) state) : Ordered state := by
  induction run with
  | refl => exact initial_ordered values output
  | tail before move ih =>
    obtain ⟨action, permitted, stepped⟩ := move
    exact step_ordered (run_valid before) ih permitted stepped

/-- However the threads interleave, the task never sleeps on an input that it has
not read, and it ends when its inputs do. -/
theorem threads_current {values : Nat → V} {output : W}
    (run : Reaches (step inputs compute) Free (initial inputs values output) state) :
    (Asleep state → state.replaced = [] → state.flag.receiving = [] → state.Current inputs compute) ∧
      (state.task = .exited → Gone state ∧ (state.flag.notified = false → state.Current inputs compute)) ∧
        (Gone state → Finishes inputs compute Free state) := by
  have valid := run_valid run
  have based := valid.based
  refine ⟨?_, ?_, ?_⟩
  · intro asleep replaced received
    rw [asleep.waiting] at based
    exact based.current replaced (asleep_clear valid (run_silent run) asleep received)
  · intro exited
    have gone := gone_iff.mpr (valid.ended exited)
    refine ⟨gone, ?_⟩
    intro clear
    rw [exited] at based
    exact Based.current based (gone_quiet valid gone).replaced clear
  · exact gone_finishes (fun _ _ _ => trivial) valid

/-- Where one thread runs everything, the loop of the task does what it is meant to:
asleep or done it has left nothing undone, and it is done when its inputs are gone. -/
theorem joined_current {values : Nat → V} {output : W}
    (run : Reaches (step inputs compute) Cooperative (initial inputs values output) state) :
    (Asleep state → state.Quiet → state.Current inputs compute ∧ state.flag.alive.Nonempty) ∧
      (state.task = .exited → Gone state ∧ state.Current inputs compute) ∧
        (Gone state → Finishes inputs compute Cooperative state) := by
  have free : Reaches (step inputs compute) Free (initial inputs values output) state := run.weaken fun _ _ _ => trivial
  obtain ⟨asleep_current, exited_current, _⟩ := threads_current free
  have valid := run_valid run
  have ordered := run_ordered run
  refine ⟨?_, ?_, ?_⟩
  · intro asleep quiet
    refine ⟨asleep_current asleep quiet.replaced quiet.received, ?_⟩
    rcases (ordered.flag.sleeping asleep.pending asleep.unwoken).2 with someone | notifying
    · exact someone
    · exact absurd (run_silent run) (Nat.ne_of_gt notifying)
  · intro exited
    obtain ⟨gone, current⟩ := exited_current exited
    exact ⟨gone, current (ordered.ended exited)⟩
  · exact gone_finishes (fun _ _ permitted => permitted) valid

end

/-- Ten times the only input. -/
def tenfold (got : List Nat) : Nat := got.headD 0 * 10

/-- The task starts and falls asleep; the input is set to 1 while it does. -/
def awakened : List (Action Nat) :=
  [.swap, .read, .set 0 1, .write, .swap, .store 0, .readCount, .register, .swap, .wake 0,
    .read, .write, .announce, .swap, .readCount, .register, .swap, .readCount]

theorem threads_current_awakened : ∃ state, exec (step [0] tenfold) awakened (initial [0] (fun _ => 0) 0) = some state ∧
    Asleep state ∧ state.output.value = 10 ∧ state.Current [0] tenfold := by
  have run : ∃ state, exec (step [0] tenfold) awakened (initial [0] (fun _ => 0) 0) = some state ∧
      Asleep state ∧ state.output.value = 10 ∧ state.replaced = [] ∧ state.flag.receiving = [] :=
    ⟨_, rfl, ⟨rfl, rfl, rfl⟩, rfl, rfl, rfl⟩
  obtain ⟨state, executed, asleep, value, replaced, received⟩ := run
  exact ⟨state, executed, asleep, value, (threads_current (exec_reaches executed)).1 asleep replaced received⟩

/-- Between threads the last change can come while the task finds out that there will
be none. -/
example : ∃ state, exec (step [0] tenfold) [.swap, .read, .write, .swap, .set 0 1, .store 0, .wake 0, .dropWake 0,
      .dropRelease 0, .readCount] (initial [0] (fun _ => 0) 0) = some state ∧
    state.task = .exited ∧ (state.inputs 0).value = 1 ∧ state.output.value = 0 := ⟨_, rfl, rfl, rfl, rfl⟩

/-- The input is set and dropped by the thread that runs the task. -/
def joined : List (Action Nat) :=
  [.swap, .read, .write, .swap, .readCount, .register, .swap, .readCount, .set 0 1, .store 0, .wake 0,
    .dropWake 0, .dropRelease 0, .swap, .read, .write, .announce, .swap, .readCount]

theorem joined_current_exited : ∃ state,
    exec (guarded (step [0] tenfold) Cooperative) joined (initial [0] (fun _ => 0) 0) = some state ∧
      state.task = .exited ∧ state.output.value = 10 ∧ Gone state ∧ state.Current [0] tenfold := by
  have run : ∃ state, exec (guarded (step [0] tenfold) Cooperative) joined (initial [0] (fun _ => 0) 0) = some state ∧
      state.task = .exited ∧ state.output.value = 10 := ⟨_, rfl, rfl, rfl⟩
  obtain ⟨state, executed, exited, value⟩ := run
  exact ⟨state, executed, exited, value, (joined_current (guarded_reaches executed)).2.1 exited⟩

end Nosy.WokenTask
