import Nosy.Proofs.WakeFlagWakeups
import Nosy.WokenTask

/-! What a task woken through a `WakeFlag` makes of its inputs. Every change of an
input that the task has not read yet is on its way to the flag or stored in it. -/

namespace Nosy.WakeFlag

/-- The waker was registered and not looked at since. -/
def Listening : Task → Prop
  | .swapping | .counting .second | .idle (some .pending) => True
  | _ => False

/-- What keeps a registered waker of use, whatever becomes of the listeners. -/
structure Registered (state : State) : Prop where
  slot : Listening state.task → state.woken = false → state.slot = true
  stored : state.task ≠ .swapping → Listening state.task → state.woken = false → state.notified = true → Waking state

private theorem wake_registered {state moved : State} (registered : Registered state) (slot : moved.slot = state.slot)
    (woken : moved.woken = state.woken) (task : moved.task = state.task) : Registered moved.wake := by
  have vacant (listening : Listening moved.wake.task) (unwoken : moved.wake.woken = false) : False := by
    obtain ⟨missing, asleep⟩ := wake_unwoken unwoken
    have held := registered.slot (by simpa [task] using listening) (by rw [← woken, asleep])
    rw [← slot, missing] at held
    cases held
  constructor
  · intro listening unwoken
    exact (vacant listening unwoken).elim
  · intro _ listening unwoken
    exact (vacant listening unwoken).elim

theorem step_registered {action : Action} {state after : State} (registered : Registered state)
    (stepped : step action state = some after) : Registered after := by
  cases step_cases stepped with
  | swapFirst =>
    unfold State.swapNotified
    split <;> constructor <;> simp [Listening]
  | swapSecond swapping =>
    unfold State.swapNotified
    split
    · constructor <;> simp [Listening]
    next clear =>
      constructor
      · intro _
        exact registered.slot (by simp [swapping, Listening])
      · intro _ _ _ stored
        exact absurd stored clear
  | @readCount round counting =>
    unfold State.readCount
    split
    · constructor <;> simp [Listening]
    · cases round with
      | first => constructor <;> simp [Listening]
      | second =>
        have listening : Listening state.task := by simp [counting, Listening]
        constructor
        · intro _
          exact registered.slot listening
        · intro _ _
          exact registered.stored (by simp [counting]) listening
  | register => constructor <;> simp
  | receiveStore =>
    constructor
    · exact registered.slot
    · intro _ _ _ _
      exact .inl (List.cons_ne_nil _ _)
  | notifyStore =>
    constructor
    · exact registered.slot
    · intro _ _ _ _
      exact .inr (Nat.succ_pos _)
  | receiveWake | notifyWake | dropWake => exact wake_registered registered rfl rfl rfl
  | clone | dropRelease => exact ⟨registered.slot, registered.stored⟩

end Nosy.WakeFlag

namespace Nosy.WokenTask
open Transition
open WakeFlag (Poll Registered)

/-- The access of `poll` that an action is. -/
def Action.polls {V : Type} : Action V → Option WakeFlag.Action
  | .swap => some .swap
  | .readCount => some .readCount
  | .register => some .register
  | _ => none

/-- The step of a listener that an action is, where no value is on its way. -/
def Action.sends {V : Type} : Action V → Option WakeFlag.Action
  | .wake input => some (.receiveWake input)
  | .dropWake input => some (.dropWake input)
  | .dropRelease input => some (.dropRelease input)
  | _ => none

def Action.sets {V : Type} : Action V → Option Nat
  | .set input _ | .setIfUnequal input _ => some input
  | _ => none

section
variable {V W : Type} [BEq W] {inputs : List Nat} {compute : List V → W}
variable {action : Action V} {state after : State V W} {flag : WakeFlag.State}

/-- What each step does, and when it can be taken. -/
inductive Stepped (inputs : List Nat) (compute : List V → W) (state : State V W) : Action V → State V W → Prop
  | polled {action : Action V} {access : WakeFlag.Action} {flag : WakeFlag.State} : action.polls = some access →
      state.task = .waiting → WakeFlag.step access state.flag = some flag →
      Stepped inputs compute state action { state with flag, task := resume inputs (WakeFlag.returned access flag) }
  | sent {action : Action V} {sending : WakeFlag.Action} {flag : WakeFlag.State} : action.sends = some sending →
      (∀ input, action = .dropWake input → input ∉ state.replaced) → WakeFlag.step sending state.flag = some flag →
      Stepped inputs compute state action { state with flag }
  | stored {input : Nat} {flag : WakeFlag.State} : input ∈ state.replaced →
      WakeFlag.step (.receiveStore input) state.flag = some flag →
      Stepped inputs compute state (.store input) { state with replaced := state.replaced.erase input, flag }
  | read {got : List V} {input : Nat} {rest : List Nat} : state.task = .reading got (input :: rest) →
      Stepped inputs compute state .read
        { state with task := .reading (got ++ [(state.inputs input).value]) rest }
  | wrote {got : List V} : state.task = .reading got [] →
      Stepped inputs compute state .write (state.write compute got)
  | announced : state.task = .announcing → Stepped inputs compute state .announce { state with task := .waiting }
  | put {action : Action V} {input : Nat} {lock : Lock V} : action.sets = some input → input ∈ state.flag.alive →
      Stepped inputs compute state action (state.put input lock)
  | same {action : Action V} : action.sets.isSome → state.flag.alive.Nonempty → Stepped inputs compute state action state

theorem poll_cases {access : WakeFlag.Action} (polls : action.polls = some access)
    (polled : state.poll inputs access = some after) : Stepped inputs compute state action after := by
  unfold State.poll at polled
  split at polled
  next waiting =>
    obtain ⟨flag, stepped, rfl⟩ := Option.map_eq_some_iff.mp polled
    exact .polled polls waiting stepped
  · cases polled

/-- What was read of an input still holds, or the task is about to hear that it does not. -/
def Fresh (state : State V W) (input : Nat) (value : V) : Prop :=
  (state.inputs input).value = value ∨ input ∈ state.replaced ∨ state.flag.notified = true

/-- The output is what the task made of what it has read. -/
def Shows (compute : List V → W) (got : List V) (output : Lock W) : Prop :=
  output.value = compute got ∨ (compute got == output.value) = true

/-- What the task knows at each point of its loop. -/
def Based (inputs : List Nat) (compute : List V → W) (state : State V W) : Task V → Prop
  | .reading got rest => ∃ done, inputs = done ++ rest ∧ List.Forall₂ (Fresh state) done got
  | _ => state.flag.notified = true ∨
      ∃ got, List.Forall₂ (Fresh state) inputs got ∧ Shows compute got state.output

structure Valid (inputs : List Nat) (compute : List V → W) (state : State V W) : Prop where
  replaced : ∀ input ∈ state.replaced, input ∈ state.flag.alive
  receiving : ∀ input ∈ state.flag.receiving, input ∈ state.flag.alive
  registered : Registered state.flag
  based : Based inputs compute state state.task
  outside : state.task ≠ .waiting → ∃ last, state.flag.task = .idle last
  ended : state.task = .exited → state.flag.strongCount = 0

private theorem initial_valid (values : Nat → V) (output : W) : Valid inputs compute (initial inputs values output) := by
  constructor
  · simp [initial]
  · simp [initial, WakeFlag.initial]
  · constructor <;> simp [initial, WakeFlag.initial, WakeFlag.Listening]
  · exact .inl rfl
  · intro started
    exact absurd rfl started
  · simp [initial]

private theorem Based.mono {task : Task V} (based : Based inputs compute state task)
    (fresh : ∀ input value, Fresh state input value → Fresh after input value) (output : after.output = state.output)
    (told : state.flag.notified = true → after.flag.notified = true) : Based inputs compute after task := by
  cases task with
  | reading got rest =>
    obtain ⟨done, split, known⟩ := based
    exact ⟨done, split, known.imp fresh⟩
  | waiting | announcing | exited =>
    rcases based with stored | ⟨got, known, shows⟩
    · exact .inl (told stored)
    · rw [← output] at shows
      exact .inr ⟨got, known.imp fresh, shows⟩

/-- A stored notification covers every input. -/
private theorem Based.told {task : Task V} (based : Based inputs compute state task)
    (output : after.output = state.output)
    (told : after.flag.notified = true) : Based inputs compute after task :=
  based.mono (fun _ _ _ => .inr (.inr told)) output fun _ => told

omit [BEq W] in
theorem polled_cases (inputs : List Nat) {access : WakeFlag.Action} {before : WakeFlag.State} (polls : action.polls = some access)
    (stepped : WakeFlag.step access before = some flag) :
    flag.alive = before.alive ∧ flag.receiving = before.receiving ∧ flag.dropping = before.dropping ∧
      ((∃ last, flag.task = .idle last) ∧ WakeFlag.returned access flag = some (.ready true) ∨
        (∃ last, flag.task = .idle last) ∧ WakeFlag.returned access flag = some (.ready false) ∧
          before.strongCount = 0 ∧ flag.notified = before.notified ∨
        (resume inputs (WakeFlag.returned access flag) : Task V) = .waiting ∧ flag.notified = before.notified) := by
  cases WakeFlag.step_cases stepped with
  | swapFirst | swapSecond =>
    unfold WakeFlag.State.swapNotified
    split
    · exact ⟨rfl, rfl, rfl, .inl ⟨⟨_, rfl⟩, rfl⟩⟩
    · exact ⟨rfl, rfl, rfl, .inr (.inr ⟨rfl, rfl⟩)⟩
  | @readCount round =>
    unfold WakeFlag.State.readCount
    split
    next none => exact ⟨rfl, rfl, rfl, .inr (.inl ⟨⟨_, rfl⟩, rfl, none, rfl⟩)⟩
    · cases round <;> exact ⟨rfl, rfl, rfl, .inr (.inr ⟨rfl, rfl⟩)⟩
  | register => exact ⟨rfl, rfl, rfl, .inr (.inr ⟨rfl, rfl⟩)⟩
  | receiveStore | receiveWake | notifyStore | notifyWake | clone | dropWake | dropRelease =>
    cases action <;> cases polls

omit [BEq W] in
theorem sent_cases {sending : WakeFlag.Action} {before : WakeFlag.State} (sends : action.sends = some sending)
    (stepped : WakeFlag.step sending before = some flag) :
    flag.task = before.task ∧ flag.notified = before.notified ∧
      (∀ input ∈ flag.receiving, input ∈ before.receiving ∧ action ≠ .dropWake input) ∧
        ∀ input ∈ before.alive, action ≠ .dropWake input → input ∈ flag.alive := by
  cases WakeFlag.step_cases stepped with
  | receiveWake =>
    refine ⟨WakeFlag.wake_task _, WakeFlag.wake_notified _, ?_, ?_⟩
    · intro input member
      rw [WakeFlag.wake_receiving] at member
      refine ⟨List.mem_of_mem_erase member, ?_⟩
      rintro rfl
      cases sends
    · intro input member _
      rw [WakeFlag.wake_alive]
      exact member
  | @dropWake listener _ unborrowed =>
    have dropped (input : Nat) (dropping : action = .dropWake input) : input = listener := by
      rw [dropping] at sends
      cases sends
      rfl
    refine ⟨WakeFlag.wake_task _, WakeFlag.wake_notified _, ?_, ?_⟩
    · intro input member
      rw [WakeFlag.wake_receiving] at member
      refine ⟨member, ?_⟩
      intro dropping
      exact unborrowed (dropped input dropping ▸ member)
    · intro input member other
      rw [WakeFlag.wake_alive]
      refine Finset.mem_erase_of_ne_of_mem ?_ member
      intro same
      cases action with
      | dropWake =>
        cases sends
        exact other (by rw [same])
      | _ => cases sends
  | dropRelease =>
    refine ⟨rfl, rfl, ?_, fun _ member _ => member⟩
    intro input member
    refine ⟨member, ?_⟩
    rintro rfl
    cases sends
  | swapFirst | swapSecond | readCount | register | receiveStore | notifyStore | notifyWake | clone =>
    cases action <;> cases sends

omit [BEq W] in
theorem sent_counted {sending : WakeFlag.Action} {before : WakeFlag.State} (sends : action.sends = some sending)
    (borrowed : ∀ input ∈ before.receiving, input ∈ before.alive)
    (stepped : WakeFlag.step sending before = some flag) : before.strongCount ≠ 0 := by
  have counted {listener : Nat} (held : listener ∈ before.alive ∨ listener ∈ before.dropping) :
      before.strongCount ≠ 0 := by
    intro none
    obtain ⟨alive, dropping⟩ := Nat.add_eq_zero_iff.mp none
    simp [Finset.card_eq_zero.mp alive, Finset.card_eq_zero.mp dropping] at held
  cases WakeFlag.step_cases stepped with
  | receiveWake receiving => exact counted (.inl (borrowed _ receiving))
  | dropWake present => exact counted (.inl present)
  | dropRelease present => exact counted (.inr present)
  | swapFirst | swapSecond | readCount | register | receiveStore | notifyStore | notifyWake | clone =>
    cases action <;> cases sends

theorem write_cases (got : List V) : (state.write compute got).flag = state.flag ∧
    (state.write compute got).inputs = state.inputs ∧ (state.write compute got).replaced = state.replaced ∧
      ((state.write compute got).task = .announcing ∨ (state.write compute got).task = .waiting) ∧
        Shows compute got (state.write compute got).output := by
  by_cases same : (compute got == state.output.value) = true
  · have kept : state.write compute got = { state with task := .waiting } := by
      simp [State.write, Lock.replaceIfUnequal, same]
    rw [kept]
    exact ⟨rfl, rfl, rfl, .inr rfl, .inr same⟩
  · have stored : state.write compute got = { state with output := ⟨compute got⟩, task := .announcing } := by
      simp [State.write, Lock.replaceIfUnequal, same]
    rw [stored]
    exact ⟨rfl, rfl, rfl, .inl rfl, .inl rfl⟩

private theorem polled_valid {access : WakeFlag.Action} (valid : Valid inputs compute state)
    (polls : action.polls = some access)
    (waiting : state.task = .waiting) (registered : Registered flag) (moved : WakeFlag.step access state.flag = some flag) :
    Valid inputs compute { state with flag, task := resume inputs (WakeFlag.returned access flag) } := by
  obtain ⟨alive, receiving, dropping, outcome⟩ := polled_cases inputs polls moved
  have based := valid.based
  rw [waiting] at based
  -- the loop rests on the same knowledge wherever it is not reading
  have rests (kept : flag.notified = state.flag.notified) (task : Task V) :
      Based inputs compute { state with flag, task } .waiting := by
    apply based.mono
    · intro input value known
      unfold Fresh
      rw [kept]
      exact known
    · rfl
    · rw [kept]
      exact id
  constructor
  · rw [alive]
    exact valid.replaced
  · rw [alive, receiving]
    exact valid.receiving
  · exact registered
  · rcases outcome with ⟨_, answer⟩ | ⟨_, answer, _, kept⟩ | ⟨asleep, kept⟩
    · rw [answer]
      exact ⟨[], rfl, .nil⟩
    · rw [answer]
      exact rests kept .exited
    · rw [asleep]
      exact rests kept .waiting
  · intro resumed
    rcases outcome with ⟨idle, _⟩ | ⟨idle, _⟩ | ⟨asleep, _⟩
    · exact idle
    · exact idle
    · exact absurd asleep resumed
  · intro exited
    rcases outcome with ⟨_, answer⟩ | ⟨_, _, none, _⟩ | ⟨asleep, _⟩
    · rw [answer] at exited
      cases exited
    · simpa [WakeFlag.State.strongCount, alive, dropping] using none
    · rw [asleep] at exited
      cases exited

private theorem sent_valid {sending : WakeFlag.Action} (valid : Valid inputs compute state)
    (sends : action.sends = some sending)
    (unset : ∀ input, action = .dropWake input → input ∉ state.replaced) (registered : Registered flag)
    (moved : WakeFlag.step sending state.flag = some flag) : Valid inputs compute { state with flag } := by
  obtain ⟨task, notified, receiving, alive⟩ := sent_cases sends moved
  constructor
  · intro input due
    apply alive input (valid.replaced input due)
    intro dropping
    exact unset input dropping due
  · intro input member
    obtain ⟨still, other⟩ := receiving input member
    exact alive input (valid.receiving input still) other
  · exact registered
  · apply valid.based.mono
    · intro input value known
      unfold Fresh
      rw [notified]
      exact known
    · rfl
    · rw [notified]
      exact id
  · rw [task]
    exact valid.outside
  · intro exited
    exact absurd (valid.ended exited) (sent_counted sends valid.receiving moved)

private theorem stored_valid {input : Nat} (valid : Valid inputs compute state) (due : input ∈ state.replaced)
    (registered : Registered flag) (moved : WakeFlag.step (.receiveStore input) state.flag = some flag) :
    Valid inputs compute { state with replaced := state.replaced.erase input, flag } := by
  have present := valid.replaced input due
  simp only [WakeFlag.step, if_pos present, Option.some.injEq] at moved
  subst moved
  constructor
  · intro other member
    exact valid.replaced other (List.mem_of_mem_erase member)
  · intro other member
    rcases List.mem_cons.mp member with rfl | member
    · exact present
    · exact valid.receiving other member
  · exact registered
  · exact valid.based.told rfl rfl
  · exact valid.outside
  · exact valid.ended

private theorem read_valid {got : List V} {input : Nat} {rest : List Nat} (valid : Valid inputs compute state)
    (reading : state.task = .reading got (input :: rest)) :
    Valid inputs compute { state with task := .reading (got ++ [(state.inputs input).value]) rest } := by
  have based := valid.based
  rw [reading] at based
  obtain ⟨done, split, known⟩ := based
  constructor
  · exact valid.replaced
  · exact valid.receiving
  · exact valid.registered
  · refine ⟨done ++ [input], by simp [split], ?_⟩
    apply List.rel_append known
    exact .cons (.inl rfl) .nil
  · intro _
    exact valid.outside (by simp [reading])
  · intro exited
    cases exited

private theorem wrote_valid {got : List V} (valid : Valid inputs compute state)
    (reading : state.task = .reading got []) :
    Valid inputs compute (state.write compute got) := by
  have based := valid.based
  rw [reading] at based
  obtain ⟨done, split, known⟩ := based
  rw [List.append_nil] at split
  obtain ⟨flag, values, replaced, resting, shows⟩ := @write_cases _ _ _ compute state got
  have rests : Based inputs compute (state.write compute got) .waiting := by
    refine .inr ⟨got, ?_, shows⟩
    rw [split]
    apply known.imp
    intro input value fresh
    unfold Fresh
    rw [values, replaced, flag]
    exact fresh
  constructor
  · rw [replaced, flag]
    exact valid.replaced
  · rw [flag]
    exact valid.receiving
  · rw [flag]
    exact valid.registered
  · rcases resting with task | task
    · rw [task]
      exact rests
    · rw [task]
      exact rests
  · intro _
    rw [flag]
    exact valid.outside (by simp [reading])
  · intro exited
    rcases resting with task | task
    · rw [task] at exited
      cases exited
    · rw [task] at exited
      cases exited

private theorem put_valid {input : Nat} {lock : Lock V} (valid : Valid inputs compute state)
    (present : input ∈ state.flag.alive) : Valid inputs compute (state.put input lock) := by
  constructor
  · intro other member
    rcases List.mem_cons.mp member with rfl | member
    · exact present
    · exact valid.replaced other member
  · exact valid.receiving
  · exact valid.registered
  · apply valid.based.mono
    · intro other value known
      by_cases same : other = input
      · exact .inr (.inl (by simp [State.put, same]))
      · rcases known with current | due | told
        · exact .inl (by simpa [State.put, Function.update_of_ne same] using current)
        · exact .inr (.inl (List.mem_cons_of_mem _ due))
        · exact .inr (.inr told)
    · rfl
    · exact id
  · exact valid.outside
  · exact valid.ended

/-- Where nothing is on its way to the flag, the task knows its inputs. -/
theorem Based.current (based : Based inputs compute state .waiting) (replaced : state.replaced = [])
    (clear : state.flag.notified = false) : state.Current inputs compute := by
  rcases based with told | ⟨got, known, shows⟩
  · rw [clear] at told
    cases told
  · have same : inputs.map (fun input => (state.inputs input).value) = got := by
      rw [← List.forall₂_eq_eq_eq, List.forall₂_map_left_iff]
      apply known.imp
      intro input value fresh
      rcases fresh with same | due | told
      · exact same
      · rw [replaced] at due
        cases due
      · rw [clear] at told
        cases told
    unfold State.Current
    rw [same]
    exact shows

structure Asleep (state : State V W) : Prop where
  waiting : state.task = .waiting
  pending : state.flag.task = .idle (some .pending)
  unwoken : state.flag.woken = false

/-- A stored notification does not let the task sleep while nobody wakes it. -/
theorem asleep_clear (valid : Valid inputs compute state) (silent : state.flag.notifying = 0) (asleep : Asleep state)
    (received : state.flag.receiving = []) : state.flag.notified = false := by
  cases told : state.flag.notified with
  | false => rfl
  | true =>
    have waking := valid.registered.stored (by simp [asleep.pending])
      (by simp [asleep.pending, WakeFlag.Listening]) asleep.unwoken told
    rcases waking with receiving | notifying
    · exact absurd received receiving
    · exact absurd silent (Nat.ne_of_gt notifying)

variable [BEq V]

theorem step_cases (stepped : step inputs compute action state = some after) :
    Stepped inputs compute state action after := by
  cases action with
  | swap => exact poll_cases rfl stepped
  | readCount => exact poll_cases rfl stepped
  | register => exact poll_cases rfl stepped
  | read | write | announce =>
    simp only [step] at stepped
    split at stepped
    next reached =>
      cases stepped
      constructor
      exact reached
    · cases stepped
  | set input value =>
    simp only [step] at stepped
    split at stepped
    next present =>
      cases stepped
      exact .put rfl present
    · cases stepped
  | setIfUnequal input value =>
    simp only [step] at stepped
    split at stepped
    next present =>
      cases stepped
      unfold State.putIfUnequal
      split
      · exact .put rfl present
      · exact .same rfl ⟨input, present⟩
    · cases stepped
  | store input =>
    simp only [step] at stepped
    split at stepped
    next due =>
      obtain ⟨flag, moved, rfl⟩ := Option.map_eq_some_iff.mp stepped
      exact .stored due moved
    · cases stepped
  | wake input | dropRelease input =>
    obtain ⟨flag, moved, rfl⟩ := Option.map_eq_some_iff.mp stepped
    exact .sent rfl (by simp) moved
  | dropWake input =>
    simp only [step] at stepped
    split at stepped
    · cases stepped
    next unset =>
      obtain ⟨flag, moved, rfl⟩ := Option.map_eq_some_iff.mp stepped
      refine .sent rfl ?_ moved
      intro other same
      cases same
      exact unset

/-- Every step is a step of the flag, or leaves it alone. The task never calls `notify`. -/
theorem step_flag (stepped : step inputs compute action state = some after) :
    (∃ access, access ≠ .notifyStore ∧ WakeFlag.step access state.flag = some after.flag) ∨ after.flag = state.flag := by
  cases step_cases stepped with
  | polled polls _ moved =>
    refine .inl ⟨_, ?_, moved⟩
    rintro rfl
    cases action <;> cases polls
  | sent sends _ moved =>
    refine .inl ⟨_, ?_, moved⟩
    rintro rfl
    cases action <;> cases sends
  | stored _ moved => exact .inl ⟨_, by simp, moved⟩
  | @wrote got => exact .inr (write_cases got).1
  | read | announced | put | same => exact .inr rfl

theorem step_valid (valid : Valid inputs compute state) (stepped : step inputs compute action state = some after) :
    Valid inputs compute after := by
  have registered : Registered after.flag := by
    rcases step_flag stepped with ⟨access, _, moved⟩ | same
    · exact WakeFlag.step_registered valid.registered moved
    · rw [same]
      exact valid.registered
  cases step_cases stepped with
  | polled polls waiting moved => exact polled_valid valid polls waiting registered moved
  | sent sends unset moved => exact sent_valid valid sends unset registered moved
  | stored due moved => exact stored_valid valid due registered moved
  | read reading => exact read_valid valid reading
  | wrote reading => exact wrote_valid valid reading
  | announced announcing =>
    have based := valid.based
    rw [announcing] at based
    refine ⟨valid.replaced, valid.receiving, registered, based, ?_, ?_⟩
    · intro busy
      exact absurd rfl busy
    · intro exited
      cases exited
  | put _ present => exact put_valid valid present
  | same => exact valid

theorem run_valid {allowed : Action V → State V W → Prop} {values : Nat → V} {output : W}
    (run : Reaches (step inputs compute) allowed (initial inputs values output) state) : Valid inputs compute state :=
  run.invariant (fun _ _ _ _ stepped valid => step_valid valid stepped) (initial_valid values output)

end
end Nosy.WokenTask
