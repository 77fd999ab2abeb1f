import Nosy.Proofs.WakeFlagSignals

/-! When `wait` returning false is the last word. The answer is computed from two
atomic reads, `notified` and then `strong_count`; the last message and the last
drop can both fall between them. -/

namespace Nosy.WakeFlag
open Transition

/-- Every signal in the history was answered later in it. -/
def Answered (log : List Event) : Prop :=
  ∀ before sender after, log = before ++ .signal sender :: after → .returned (.ready true) ∈ after

/-- In the history of a run, what came before a false result was answered before it; where
`WakeFlag::notify` is not called any more, all later results are the same. -/
def FalseIsFinal (allowed : Wait → Waiting → Prop) (wakeImmediately : Bool) : Prop :=
  ∀ last, Reaches Waiting.step allowed (.new wakeImmediately) last →
    ∀ before after, last.log = before ++ .returned (.ready false) :: after →
      Answered before ∧ (.signal none ∉ after → ∀ result, .returned result ∈ after → result = .ready false)

/-- No message is stored between the two reads of a poll that finds every
listener gone. -/
def Settled (action : Wait) (waiting : Waiting) : Prop :=
  action = .shared .readCount → waiting.flag.strongCount = 0 → waiting.flag.notified = false

/-- Nobody is left who could store a message, and none is stored. -/
structure Silent (state : State) : Prop where
  alive : state.alive = ∅
  dropping : state.dropping = ∅
  notified : state.notified = false
  task : state.task = .idle (some (.ready false)) ∨ state.task = .counting .first

theorem step_silent {action : Action} {state after : State} (silent : Silent state)
    (stepped : step action state = some after) (quiet : action ≠ .notifyStore) : Silent after := by
  obtain ⟨alive, dropping, notified, task⟩ := silent
  have woken (other : State) (same : Silent other) : Silent other.wake := by
    unfold State.wake
    split
    · exact ⟨same.alive, same.dropping, same.notified, same.task⟩
    · exact same
  cases step_cases stepped with
  | swapFirst =>
    simp only [State.swapNotified, notified, Bool.false_eq_true, if_false]
    exact ⟨alive, dropping, rfl, .inr rfl⟩
  | readCount =>
    simp only [State.readCount, State.strongCount, alive, dropping, Finset.card_empty, Nat.add_zero, if_true]
    exact ⟨rfl, rfl, notified, .inl rfl⟩
  | swapSecond reached | register reached =>
    rcases task with task | task
    all_goals
      rw [task] at reached
      cases reached
  | notifyStore => exact absurd rfl quiet
  | receiveWake | notifyWake => exact woken _ ⟨alive, dropping, notified, task⟩
  | receiveStore present | clone present | dropWake present =>
    rw [alive] at present
    exact absurd present (Finset.notMem_empty _)
  | dropRelease present =>
    rw [dropping] at present
    exact absurd present (Finset.notMem_empty _)

private theorem ends_silent {action : Action} {before after : State} (stepped : step action before = some after)
    (result : returned action after = some (.ready false))
    (settled : action = .readCount → before.strongCount = 0 → before.notified = false) :
    before.notified = false ∧ Silent after := by
  cases step_cases stepped with
  | swapFirst | swapSecond =>
    cases stored : before.notified <;> simp [returned, State.swapNotified, stored] at result
  | @readCount round _ =>
    unfold State.readCount at result ⊢
    split at result
    next none =>
      have clear := settled rfl none
      rw [if_pos none]
      obtain ⟨alive, dropping⟩ := Nat.add_eq_zero_iff.mp none
      exact ⟨clear, Finset.card_eq_zero.mp alive, Finset.card_eq_zero.mp dropping, clear, .inl rfl⟩
    next someone => cases round <;> simp [returned] at result
  | register | receiveStore | receiveWake | notifyStore | notifyWake | clone | dropWake | dropRelease => cases result

private theorem returned_idle {action : Action} {after : State} {result : Poll}
    (ended : returned action after = some result) : after.task = .idle (some result) := by
  unfold returned at ended
  split at ended
  next idle => rw [idle, ended]
  next idle => rw [idle, ended]
  · cases ended

/-- A clear flag has answered every signal. -/
private theorem clear_answered {wakeImmediately : Bool} {waiting : Waiting}
    (recorded : waiting.Recorded wakeImmediately)
    (clear : waiting.flag.notified = false) : Answered waiting.log := by
  intro before sender after history
  rw [Waiting.Recorded, history] at recorded
  rcases Signals.conserved recorded rfl with stored | ⟨taking, member, taken⟩
  · rw [clear] at stored
    cases stored
  · exact (take_iff taking).mp taken ▸ member

/-- Since a false result nobody has been left. -/
def Final (waiting : Waiting) : Prop :=
  ∀ before after, waiting.log = before ++ .returned (.ready false) :: after →
    Answered before ∧ (.signal none ∉ after →
      Silent waiting.flag ∧ ∀ result, .returned result ∈ after → result = .ready false)

private theorem shown_returned {action : Action} {after : State} {result : Poll}
    (member : .returned result ∈ shown action after) : returned action after = some result := by
  cases action <;> simpa [shown, Action.signals] using member

private theorem shown_single {action : Action} {state : State} {event : Event} {before after : List Event}
    (same : shown action state = before ++ event :: after) : before = [] ∧ after = [] := by
  have few : (shown action state).length ≤ 1 := by
    cases action with
    | swap | readCount =>
      simp only [shown, Action.signals, List.nil_append, List.length_map]
      exact Option.length_toList_le
    | register | receiveStore | receiveWake | notifyStore | notifyWake | clone | dropWake | dropRelease =>
      simp [shown, Action.signals, returned]
  rw [same, List.length_append, List.length_cons] at few
  exact ⟨List.length_eq_zero_iff.mp (by omega), List.length_eq_zero_iff.mp (by omega)⟩

private theorem split_grown {log added before after : List Event} {event : Event}
    (same : log ++ added = before ++ event :: after) :
    (∃ between, before = log ++ between ∧ added = between ++ event :: after) ∨
      ∃ between, log = before ++ event :: between ∧ after = between ++ added := by
  rcases List.append_eq_append_iff.mp same with ⟨between, first, later⟩ | ⟨between, first, later⟩
  · exact .inl ⟨between, first, later⟩
  · cases between with
    | nil => exact .inl ⟨[], by simpa using first.symm, later.symm⟩
    | cons head between =>
      cases later
      exact .inr ⟨between, first, rfl⟩

theorem step_final {wakeImmediately : Bool} {action : Wait} {waiting after : Waiting}
    (recorded : waiting.Recorded wakeImmediately) (final : Final waiting) (settled : Settled action waiting)
    (stepped : Waiting.step action waiting = some after) : Final after := by
  rcases Waiting.step_log stepped with ⟨flag, log⟩ | ⟨access, rfl, inner, log⟩
  · unfold Final
    rw [flag, log]
    exact final
  · intro before later history
    rw [log] at history
    rcases split_grown history with ⟨between, rfl, new⟩ | ⟨between, old, rfl⟩
    · obtain ⟨rfl, rfl⟩ := shown_single new
      have shows : .returned (.ready false) ∈ shown access after.flag := by
        rw [new]
        exact List.mem_cons_self
      obtain ⟨clear, silent⟩ := ends_silent inner (shown_returned shows) fun reads => settled (congrArg Wait.shared reads)
      rw [List.append_nil]
      exact ⟨clear_answered recorded clear, fun _ => ⟨silent, by simp⟩⟩
    · obtain ⟨answered, quiet⟩ := final before between old
      refine ⟨answered, ?_⟩
      intro unnotified
      rw [List.mem_append, not_or] at unnotified
      obtain ⟨silent, same⟩ := quiet unnotified.1
      have still : Silent after.flag := by
        apply step_silent silent inner
        rintro rfl
        exact unnotified.2 List.mem_cons_self
      refine ⟨still, ?_⟩
      intro result member
      rcases List.mem_append.mp member with early | late
      · exact same result early
      · have idle := returned_idle (shown_returned late)
        rcases still.task with task | task
        all_goals
          rw [task] at idle
          cases idle
        rfl

/-- In every run without such a message, a false result hides nothing and stays. -/
theorem settled_false_is_final (wakeImmediately : Bool) : FalseIsFinal Settled wakeImmediately := by
  intro last run before after history
  have final : last.Recorded wakeImmediately ∧ Final last := by
    apply run.invariant
    · intro action waiting next settled stepped known
      exact ⟨Waiting.step_recorded known.1 stepped, step_final known.1 known.2 settled stepped⟩
    · refine ⟨rfl, ?_⟩
      intro before after impossible
      simp [Waiting.new] at impossible
  obtain ⟨answered, quiet⟩ := final.2 before after history
  exact ⟨answered, fun unnotified => (quiet unnotified).2⟩

instance (action : Wait) (waiting : Waiting) : Decidable (Settled action waiting) :=
  inferInstanceAs (Decidable (_ → _ → _))

/-- A message is answered, the listener goes, and the flag is asked twice more. -/
def exhausted : List Wait :=
  [.shared (.receiveStore 0), .shared (.receiveWake 0), .pollNext, .shared .swap, .shared (.dropWake 0),
    .shared (.dropRelease 0), .pollNext, .shared .swap, .shared .readCount, .pollNext, .shared .swap, .shared .readCount]

theorem settled_false_is_final_exhausted : ∃ last, exec (guarded Waiting.step Settled) exhausted (.new false) = some last ∧
    last.log = [.signal (some 0), .returned (.ready true), .returned (.ready false), .returned (.ready false)] ∧
      Answered [.signal (some 0), .returned (.ready true)] := by
  have run : ∃ last, exec (guarded Waiting.step Settled) exhausted (.new false) = some last ∧
      last.log = [.signal (some 0), .returned (.ready true), .returned (.ready false), .returned (.ready false)] :=
    ⟨_, rfl, rfl⟩
  obtain ⟨last, executed, history⟩ := run
  have final := settled_false_is_final false last (guarded_reaches executed)
    [.signal (some 0), .returned (.ready true)] [.returned (.ready false)] history
  exact ⟨last, executed, history, final.1⟩

theorem poll_answers {waiting : Waiting} {last : Option Poll} (idle : waiting.flag.task = .idle last)
    (stored : waiting.flag.notified = true) (free : waiting.caller = none) :
    ∃ actions after, exec Waiting.step actions waiting = some after ∧
      after.log = waiting.log ++ [.returned (.ready true)] := by
  have polled (unborrowed : Waiting) (flag : unborrowed.flag = waiting.flag) (log : unborrowed.log = waiting.log)
      (unused : unborrowed.future = none) (uncalled : unborrowed.caller = none) :
      ∃ after, exec Waiting.step [.pollNext, .shared .swap] unborrowed = some after ∧
        after.log = waiting.log ++ [.returned (.ready true)] := by
    simp [exec, Waiting.step, unused, uncalled, Waiting.permits, step, flag, idle, State.swapNotified, stored, returned,
      Waiting.finish, log, Action.signals]
  cases future : waiting.future with
  | none =>
    obtain ⟨after, executed, log⟩ := polled waiting rfl rfl future free
    exact ⟨_, after, executed, log⟩
  | some done =>
    obtain ⟨after, executed, log⟩ := polled { waiting with future := none } rfl rfl rfl free
    refine ⟨.dropFuture :: [.pollNext, .shared .swap], after, ?_, log⟩
    rw [free] at executed
    rw [exec, Waiting.step, future, free]
    exact executed

/-- The condition leaves out nothing else: a false result that comes while a message is
stored is followed by another one. -/
theorem unsettled_revoked {waiting ended : Waiting} (stepped : Waiting.step (.shared .readCount) waiting = some ended)
    (result : ended.flag.task = .idle (some (.ready false))) (stored : waiting.flag.notified = true) :
    ∃ actions last, exec Waiting.step actions ended = some last ∧
      last.log = ended.log ++ [.returned (.ready true)] := by
  simp only [Waiting.step] at stepped
  split at stepped
  · obtain ⟨flag, inner, rfl⟩ := Option.map_eq_some_iff.mp stepped
    rw [Waiting.finish_flag] at result
    have idle : flag.task = .idle (some (.ready false)) := result
    have still : flag.notified = true := by
      cases step_cases inner with
      | @readCount round _ =>
        unfold State.readCount
        split
        · exact stored
        · cases round <;> exact stored
    have returns : returned .readCount flag = some (.ready false) := by simp [returned, idle]
    rw [returns]
    exact poll_answers idle still rfl
  · cases stepped

/-- The only listener receives a message and is dropped between the two reads. -/
def receivedBetween : List Wait :=
  [.wait, .poll, .shared .swap, .shared (.receiveStore 0), .shared (.receiveWake 0), .shared (.dropWake 0),
    .shared (.dropRelease 0), .shared .readCount, .dropFuture, .wait, .poll, .shared .swap]

theorem received_between_not_final : ¬ FalseIsFinal Free false := by
  intro claimed
  have run : ∃ last, exec Waiting.step receivedBetween (.new false) = some last ∧
      last.log = [.signal (some 0), .returned (.ready false), .returned (.ready true)] := ⟨_, rfl, rfl⟩
  obtain ⟨last, executed, history⟩ := run
  have final := (claimed last (exec_reaches executed) [.signal (some 0)] [.returned (.ready true)] history).2
  cases final (by simp) (.ready true) List.mem_cons_self

end Nosy.WakeFlag
