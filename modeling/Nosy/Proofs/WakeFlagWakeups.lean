import Nosy.WakeFlag

/-! When a sleeping task is sure to be woken. `Drop::drop` of a listener calls
`wake` before its `_alive` field is dropped, so a poll that runs between the two
sees a listener that will never wake it. -/

namespace Nosy.WakeFlag
open Transition

/-- The task sleeps, nobody is about to wake it, and yet there is something for
it to find out. -/
structure Lost (state : State) : Prop where
  asleep : state.task = .idle (some .pending)
  unwoken : state.woken = false
  received : state.receiving = []
  notified : state.notifying = 0
  dropped : state.dropping = ∅
  due : state.notified = true ∨ state.alive = ∅

def NoneLost (allowed : Action → State → Prop) (wakeImmediately : Bool) : Prop :=
  ∀ state, Reaches step allowed (initial wakeImmediately) state → ¬ Lost state

/-- A poll is not about to return `Pending` when the only listeners left are past
the `wake` of their drop, unless its waker was invoked or is about to be. -/
def Timely (action : Action) (state : State) : Prop :=
  action = .readCount → state.task = .counting .second → state.alive = ∅ → state.dropping.Nonempty →
    state.woken = true ∨ 0 < state.notifying

/-- Some party will still call `wake`. -/
def Waking (state : State) : Prop := state.receiving ≠ [] ∨ 0 < state.notifying

/-- The waker is registered, and its invocation is still to come. -/
structure Armed (state : State) : Prop where
  slot : state.slot = true
  stored : state.notified = true → Waking state

structure Valid (state : State) : Prop where
  borrowed : ∀ listener ∈ state.receiving, listener ∈ state.alive
  registered : state.task = .swapping → state.woken = false → state.slot = true
  counting : state.task = .counting .second → state.woken = false → Armed state
  sleeping : state.task = .idle (some .pending) → state.woken = false →
    Armed state ∧ (state.alive.Nonempty ∨ 0 < state.notifying)

private theorem initial_valid (wakeImmediately : Bool) : Valid (initial wakeImmediately) := by
  constructor <;> simp [initial]

theorem wake_unwoken {state : State} (unwoken : state.wake.woken = false) :
    state.slot = false ∧ state.woken = false := by
  unfold State.wake at unwoken
  split at unwoken
  · cases unwoken
  next empty => exact ⟨by simpa using empty, unwoken⟩

private theorem wake_valid {state moved : State} (valid : Valid state) (slot : moved.slot = state.slot)
    (woken : moved.woken = state.woken) (task : moved.task = state.task)
    (borrowed : ∀ listener ∈ moved.receiving, listener ∈ moved.alive) : Valid moved.wake := by
  have empty (unwoken : moved.wake.woken = false) : state.slot = false ∧ state.woken = false := by
    rw [← slot, ← woken]
    exact wake_unwoken unwoken
  constructor
  · simpa using borrowed
  · intro swapping unwoken
    obtain ⟨missing, asleep⟩ := empty unwoken
    have held := valid.registered (by simpa [task] using swapping) asleep
    rw [missing] at held
    cases held
  · intro counting unwoken
    obtain ⟨missing, asleep⟩ := empty unwoken
    have held := (valid.counting (by simpa [task] using counting) asleep).slot
    rw [missing] at held
    cases held
  · intro sleeping unwoken
    obtain ⟨missing, asleep⟩ := empty unwoken
    have held := (valid.sleeping (by simpa [task] using sleeping) asleep).1.slot
    rw [missing] at held
    cases held

private theorem swapNotified_valid {state : State} (valid : Valid state) (round : Round)
    (armed : round = .second → state.woken = false → state.slot = true) :
    Valid (state.swapNotified round) := by
  unfold State.swapNotified
  split
  · exact ⟨valid.borrowed, by simp, by simp, by simp⟩
  next clear =>
    refine ⟨valid.borrowed, by simp, ?_, by simp⟩
    intro counting unwoken
    obtain rfl : round = .second := by simpa using counting
    exact ⟨armed rfl unwoken, fun stored => absurd stored clear⟩

private theorem readCount_valid {state : State} (valid : Valid state) (round : Round)
    (counting : state.task = .counting round) (timely : Timely .readCount state) :
    Valid (state.readCount round) := by
  unfold State.readCount
  split
  · exact ⟨valid.borrowed, by simp, by simp, by simp⟩
  next someone =>
    cases round with
    | first => exact ⟨valid.borrowed, by simp, by simp, by simp⟩
    | second =>
      refine ⟨valid.borrowed, by simp, by simp, ?_⟩
      intro _ unwoken
      obtain ⟨slot, stored⟩ := valid.counting counting unwoken
      refine ⟨⟨slot, stored⟩, ?_⟩
      by_cases empty : state.alive = ∅
      · -- every listener left is past its wake, so someone else must be about to call it
        have dropping : state.dropping.Nonempty := by
          rw [Finset.nonempty_iff_ne_empty]
          intro none
          exact someone (by simp [State.strongCount, empty, none])
        rcases timely rfl counting empty dropping with woken | notifying
        · rw [unwoken] at woken
          cases woken
        · exact .inr notifying
      · exact .inl (Finset.nonempty_iff_ne_empty.mpr empty)

private theorem store_valid {state : State} (valid : Valid state) {receiving : List Nat} {notifying : Nat}
    (borrowed : ∀ listener ∈ receiving, listener ∈ state.alive)
    (more : state.notifying ≤ notifying) (waking : receiving ≠ [] ∨ 0 < notifying) :
    Valid { state with notified := true, receiving, notifying } := by
  refine ⟨borrowed, valid.registered, ?_, ?_⟩
  · exact fun counting unwoken => ⟨(valid.counting counting unwoken).slot, fun _ => waking⟩
  · intro sleeping unwoken
    obtain ⟨armed, listener⟩ := valid.sleeping sleeping unwoken
    exact ⟨⟨armed.slot, fun _ => waking⟩, listener.imp id (Nat.lt_of_lt_of_le · more)⟩

theorem step_valid {action : Action} {state after : State} (timely : Timely action state)
    (stepped : step action state = some after) (valid : Valid state) : Valid after := by
  cases step_cases stepped with
  | swapFirst => exact swapNotified_valid valid .first (by simp)
  | swapSecond swapping => exact swapNotified_valid valid .second fun _ unwoken => valid.registered swapping unwoken
  | @readCount round counting => exact readCount_valid valid round counting timely
  | register => exact ⟨valid.borrowed, fun _ _ => rfl, by simp, by simp⟩
  | receiveStore present =>
    refine store_valid valid ?_ (Nat.le_refl _) (.inl (List.cons_ne_nil _ _))
    intro other member
    rcases List.mem_cons.mp member with rfl | member
    · exact present
    · exact valid.borrowed other member
  | receiveWake =>
    exact wake_valid valid rfl rfl rfl fun other member => valid.borrowed other (List.mem_of_mem_erase member)
  | notifyStore => exact store_valid valid valid.borrowed (Nat.le_succ _) (.inr (Nat.succ_pos _))
  | notifyWake => exact wake_valid valid rfl rfl rfl valid.borrowed
  | clone =>
    refine ⟨fun other member => Finset.mem_insert_of_mem (valid.borrowed other member),
      valid.registered, fun counting unwoken => ?_, fun sleeping unwoken => ?_⟩
    · obtain ⟨slot, stored⟩ := valid.counting counting unwoken
      exact ⟨slot, stored⟩
    · obtain ⟨⟨slot, stored⟩, _⟩ := valid.sleeping sleeping unwoken
      exact ⟨⟨slot, stored⟩, .inl (Finset.insert_nonempty _ _)⟩
  | dropWake _ unborrowed =>
    refine wake_valid valid rfl rfl rfl fun other member => ?_
    exact Finset.mem_erase_of_ne_of_mem (fun same => unborrowed (same ▸ member)) (valid.borrowed other member)
  | dropRelease =>
    refine ⟨valid.borrowed, valid.registered, fun counting unwoken => ?_, fun sleeping unwoken => ?_⟩
    · obtain ⟨slot, stored⟩ := valid.counting counting unwoken
      exact ⟨slot, stored⟩
    · obtain ⟨⟨slot, stored⟩, listeners⟩ := valid.sleeping sleeping unwoken
      exact ⟨⟨slot, stored⟩, listeners⟩

/-- In every run whose polls are timely, the task never sleeps through its last
message or through the end of its last listener. -/
theorem timely_none_lost (wakeImmediately : Bool) : NoneLost Timely wakeImmediately := by
  intro state run lost
  have valid := run.invariant (fun _ _ _ timely stepped valid => step_valid timely stepped valid)
    (initial_valid wakeImmediately)
  obtain ⟨armed, someone⟩ := valid.sleeping lost.asleep lost.unwoken
  rcases lost.due with stored | gone
  · rcases armed.stored stored with receiving | notifying
    · exact receiving lost.received
    · exact absurd lost.notified (Nat.ne_of_gt notifying)
  · rcases someone with ⟨listener, member⟩ | notifying
    · rw [gone] at member
      exact absurd member (Finset.notMem_empty _)
    · exact absurd lost.notified (Nat.ne_of_gt notifying)

private theorem release_all (state : State) (asleep : state.task = .idle (some .pending))
    (unwoken : state.woken = false) (received : state.receiving = []) (notified : state.notifying = 0)
    (gone : state.alive = ∅) : ∃ last, Reaches step Free state last ∧ Lost last := by
  induction remaining : state.dropping.card generalizing state with
  | zero => exact ⟨state, .refl, asleep, unwoken, received, notified, Finset.card_eq_zero.mp remaining, .inr gone⟩
  | succ count ih =>
    obtain ⟨listener, member⟩ := Finset.card_pos.mp (Nat.lt_of_lt_of_eq (Nat.succ_pos count) remaining.symm)
    obtain ⟨last, run, lost⟩ := ih { state with dropping := state.dropping.erase listener }
      asleep unwoken received notified gone (by rw [Finset.card_erase_of_mem member, remaining, Nat.succ_sub_one])
    exact ⟨last, .head ⟨.dropRelease listener, trivial, if_pos member⟩ run, lost⟩

/-- The guard excludes nothing else: a read that is not timely can be followed by
the rest of the drops, and then the task is lost. -/
theorem untimely_lost {state : State} (valid : Valid state) (counting : state.task = .counting .second)
    (gone : state.alive = ∅) (dropping : state.dropping.Nonempty) (unwoken : state.woken = false)
    (notified : state.notifying = 0) : ∃ last, Reaches step Free state last ∧ Lost last := by
  have received : state.receiving = [] := by
    apply List.eq_nil_iff_forall_not_mem.mpr
    intro listener member
    have held := valid.borrowed listener member
    rw [gone] at held
    exact absurd held (Finset.notMem_empty _)
  have count : state.strongCount ≠ 0 := by
    have positive := Finset.card_pos.mpr dropping
    simp only [State.strongCount, ne_eq]
    omega
  have stepped : step .readCount state = some { state with task := .idle (some .pending) } := by
    simp only [step, counting, State.readCount, if_neg count]
  obtain ⟨last, run, lost⟩ :=
    release_all { state with task := .idle (some .pending) } rfl unwoken received notified gone
  exact ⟨last, .head ⟨.readCount, trivial, stepped⟩ run, lost⟩

/-- The only listener is dropped while the task polls between the two halves of
the drop: it is woken before there is anything to see, and never again. -/
def droppedInTwo : List Action :=
  [.dropWake 0, .swap, .readCount, .register, .swap, .readCount, .dropRelease 0]

theorem dropped_in_two_lost : ¬ NoneLost Free false := by
  intro claimed
  have run : ∃ state, exec step droppedInTwo (initial false) = some state ∧ Lost state :=
    ⟨_, rfl, rfl, rfl, rfl, rfl, by decide, .inr (by decide)⟩
  obtain ⟨state, executed, lost⟩ := run
  exact claimed state (exec_reaches executed) lost

end Nosy.WakeFlag
