import Nosy.General.Signals
import Nosy.WakeFlagFuture

/-! Signals into a `WakeFlag` are conserved. Its history is one of a flag that is
raised by every signal and taken by every poll that returns `Ready(true)`. -/

namespace Nosy.WakeFlag
open Transition

def Event.kind : Event → Option Signals.Kind
  | .signal _ => some .raise
  | .returned (.ready true) => some .take
  | .returned _ => none

theorem raise_iff (event : Event) : event.kind = some .raise ↔ event.isSignal = true := by
  rcases event with sender | (_ | _) | _ <;> simp [Event.kind, Event.isSignal]

theorem take_iff (event : Event) : event.kind = some .take ↔ event = .returned (.ready true) := by
  rcases event with sender | (_ | _) | _ <;> simp [Event.kind]

private theorem signal_of_isSignal {event : Event} (signal : event.isSignal = true) : ∃ sender, event = .signal sender := by
  cases event with
  | signal sender => exact ⟨sender, rfl⟩
  | returned result => cases signal

/-- What one step of the flag shows of itself. -/
def shown (action : Action) (after : State) : List Event :=
  action.signals ++ (returned action after).toList.map .returned

/-- A step of the flag is what it shows, to whoever only signals through it. -/
theorem step_shown {action : Action} {state after : State} (stepped : step action state = some after) :
    exec (Signals.step Event.kind) (shown action after) state.notified = some after.notified := by
  have swapped (round : Round) : exec (Signals.step Event.kind) (shown .swap (state.swapNotified round)) state.notified =
      some (state.swapNotified round).notified := by
    cases stored : state.notified with
    | true => simp [State.swapNotified, stored, shown, Action.signals, returned, exec, Signals.step, Event.kind]
    | false => simp [State.swapNotified, stored, shown, Action.signals, returned, exec]
  cases step_cases stepped with
  | swapFirst | swapSecond => exact swapped _
  | @readCount round =>
    unfold State.readCount
    split
    · simp [shown, Action.signals, returned, exec, Signals.step, Event.kind]
    · cases round <;> simp [shown, Action.signals, returned, exec, Signals.step, Event.kind]
  | register | clone | dropRelease => rfl
  | receiveStore | notifyStore => rfl
  | receiveWake | notifyWake | dropWake =>
    rw [wake_notified]
    rfl

namespace Waiting

@[simp] theorem finish_flag (waiting : Waiting) (result : Option Poll) : (waiting.finish result).flag = waiting.flag := by
  cases result <;> rfl

@[simp] theorem finish_log (waiting : Waiting) (result : Option Poll) :
    (waiting.finish result).log = waiting.log ++ result.toList.map .returned := by
  cases result with
  | none => exact (List.append_nil _).symm
  | some result => rfl

/-- The history is one of a flag that is now `notified`. -/
def Recorded (wakeImmediately : Bool) (waiting : Waiting) : Prop :=
  exec (Signals.step Event.kind) waiting.log wakeImmediately = some waiting.flag.notified

theorem step_log {action : Wait} {waiting after : Waiting} (stepped : step action waiting = some after) :
    (after.flag = waiting.flag ∧ after.log = waiting.log) ∨
      ∃ access, action = .shared access ∧ WakeFlag.step access waiting.flag = some after.flag ∧
        after.log = waiting.log ++ shown access after.flag := by
  cases action with
  | wait | pollNext | receiveEmpty =>
    simp only [step] at stepped
    split at stepped
    · cases stepped
      exact .inl ⟨rfl, rfl⟩
    · cases stepped
  | poll | dropFuture =>
    simp only [step] at stepped
    split at stepped <;> cases stepped
    all_goals exact .inl ⟨rfl, rfl⟩
  | shared access =>
    simp only [step] at stepped
    split at stepped
    · obtain ⟨flag, inner, rfl⟩ := Option.map_eq_some_iff.mp stepped
      refine .inr ⟨access, rfl, ?_, ?_⟩
      · rw [finish_flag]
        exact inner
      · rw [finish_log, finish_flag, List.append_assoc]
        rfl
    · cases stepped

theorem step_recorded {wakeImmediately : Bool} {action : Wait} {waiting after : Waiting}
    (recorded : waiting.Recorded wakeImmediately) (stepped : step action waiting = some after) :
    after.Recorded wakeImmediately := by
  rcases step_log stepped with ⟨flag, log⟩ | ⟨access, _, inner, log⟩
  · rw [Recorded, flag, log]
    exact recorded
  · rw [Recorded, log, exec_append, recorded]
    exact step_shown inner

/-- Neither the drop of a future nor an empty batch is a signal, or takes one. -/
def Inert (action : Wait) : Prop := action = .dropFuture ∨ ∃ listener, action = .receiveEmpty listener

theorem step_inert {action : Wait} {waiting after : Waiting} (inert : Inert action)
    (stepped : step action waiting = some after) : after.flag = waiting.flag ∧ after.log = waiting.log := by
  rcases inert with rfl | ⟨listener, rfl⟩
  · simp only [step] at stepped
    split at stepped <;> cases stepped
    exact ⟨rfl, rfl⟩
  · simp only [step] at stepped
    split at stepped <;> cases stepped
    exact ⟨rfl, rfl⟩

theorem run_recorded {wakeImmediately : Bool} {last : Waiting} (run : Reaches step Free (new wakeImmediately) last) :
    last.Recorded wakeImmediately :=
  run.invariant (fun _ _ _ _ stepped recorded => step_recorded recorded stepped) rfl

/-- Whatever happened so far: a signal waits in the flag or was answered since; no
more polls have returned `Ready(true)` than there were signals, and between two of
them there was one. -/
theorem signals_conserved (wakeImmediately : Bool) {last : Waiting} (run : Reaches step Free (new wakeImmediately) last) :
    (∀ before sender after, last.log = before ++ .signal sender :: after →
      last.flag.notified = true ∨ .returned (.ready true) ∈ after) ∧
    last.log.count (.returned (.ready true)) ≤ last.log.countP Event.isSignal + wakeImmediately.toNat ∧
    (∀ before middle after, last.log = before ++ .returned (.ready true) :: (middle ++ .returned (.ready true) :: after) →
      ∃ sender, .signal sender ∈ middle) ∧
    ∀ action after, Inert action → step action last = some after → after.flag = last.flag ∧ after.log = last.log := by
  have recorded := run_recorded run
  refine ⟨fun before sender after history => ?_, ?_, fun before middle after history => ?_, fun _ _ => step_inert⟩
  · rw [Recorded, history] at recorded
    rcases Signals.conserved recorded rfl with waiting | ⟨taking, member, taken⟩
    · exact .inl waiting
    · exact .inr ((take_iff taking).mp taken ▸ member)
  · have counted := Signals.accounted recorded
    have takes : last.log.count (.returned (.ready true)) = last.log.countP (·.kind = some .take) :=
      List.countP_congr fun event _ => by simp [take_iff]
    have raises : last.log.countP Event.isSignal = last.log.countP (·.kind = some .raise) :=
      List.countP_congr fun event _ => by simp [raise_iff]
    omega
  · rw [Recorded, history] at recorded
    obtain ⟨raising, member, raised⟩ := Signals.separated recorded rfl rfl
    obtain ⟨sender, rfl⟩ := signal_of_isSignal ((raise_iff raising).mp raised)
    exact ⟨sender, member⟩

/-- A future is dropped while it waits, a message comes, and the next future gets it. -/
def cancelled : List Wait :=
  [.wait, .poll, .shared .swap, .shared .readCount, .shared .register, .shared .swap, .shared .readCount, .dropFuture,
    .shared (.receiveStore 0), .shared (.receiveWake 0), .wait, .poll, .shared .swap]

theorem signals_conserved_cancelled : ∃ last, exec step cancelled (new false) = some last ∧
    last.log = [.returned .pending, .signal (some 0), .returned (.ready true)] ∧
    last.log.count (.returned (.ready true)) ≤ last.log.countP Event.isSignal + false.toNat := by
  have run : ∃ last, exec step cancelled (new false) = some last ∧
      last.log = [.returned .pending, .signal (some 0), .returned (.ready true)] := ⟨_, rfl, rfl⟩
  obtain ⟨last, executed, history⟩ := run
  exact ⟨last, executed, history, (signals_conserved false (exec_reaches executed)).2.1⟩

end Waiting
end Nosy.WakeFlag
