import Nosy.Proofs.StoreLock

/-! How long the state of a `StoreLock` lives, and that nobody waits for it forever. A
listener that is refused once is refused from then on, and so is every other. -/

namespace Nosy.StoreLock
open Transition

variable {τ T M : Type} [DecidableEq τ] [Inhabited T] {store : Store M T}
variable {action : Action τ T M} {state after : State τ T M} {thread : τ}

omit [DecidableEq τ] [Inhabited T] in
/-- The state lives as long as its owner, and calls of listeners that outlive it. -/
theorem Located.lives {mutex : SharedLock τ} {shared : Counted T} {owned : Bool} {borrowers : Finset τ}
    {phase : τ → Phase T M} (located : Located mutex shared owned borrowers phase) :
    shared.value.isSome ↔ owned = true ∨ ∃ thread, (phase thread).counted = true := by
  obtain ⟨holders, held, owner, callers⟩ := located.counted
  rw [held.kept]
  constructor
  · rintro ⟨holder, member⟩
    cases holder with
    | none => exact .inl (owner.mp member)
    | some thread => exact .inr ⟨thread, (callers thread).mp member⟩
  · rintro (owned | ⟨thread, counted⟩)
    · exact ⟨none, owner.mpr owned⟩
    · exact ⟨some thread, (callers thread).mpr counted⟩

omit [DecidableEq τ] [Inhabited T] in
theorem Located.gone {mutex : SharedLock τ} {shared : Counted T} {owned : Bool} {borrowers : Finset τ}
    {phase : τ → Phase T M} (located : Located mutex shared owned borrowers phase) :
    shared.value = none ↔ shared.upgrade = none := by
  obtain ⟨holders, held, _, _⟩ := located.counted
  rw [held.destroyed, held.upgrade_none]

omit [DecidableEq τ] [Inhabited T] in
private theorem inside_kept {phase : Phase T M} (busy : phase ≠ .idle)
    (begun : ∀ link messages, phase ≠ .upgrading link messages) :
    phase.counted = true ∨ phase.borrows = true := by
  cases phase with
  | idle => exact absurd rfl busy
  | upgrading link messages => exact absurd rfl (begun link messages)
  | locking request =>
    rcases request with ⟨handle, messages⟩ | _ | _
    · cases handle
      · exact .inr rfl
      · exact .inl rfl
    · exact .inr rfl
    · exact .inr rfl
  | storing handle | unwinding handle | leaving handle =>
    cases handle
    · exact .inr rfl
    · exact .inl rfl
  | taking | replaced | holding => exact .inr rfl

/-- Once the state is destroyed only listeners are called, and all in vain. -/
theorem step_gone (located : state.Located) (gone : state.shared.value = none)
    (stepped : step store action state = some after) :
    after.shared.value = none ∧ after.order = state.order ∧
      (after.answers = state.answers ∨ ∃ thread messages, after.answers = state.answers ++ [(thread, .refused messages)]) := by
  have nobody (thread : τ) (busy : state.phase thread ≠ .idle)
      (begun : ∀ link messages, state.phase thread ≠ .upgrading link messages) : False := by
    have kept := Located.kept located (inside_kept busy begun)
    simp [gone] at kept
  have closed := (Located.gone located).mp gone
  cases step_cases stepped with
  | called => exact ⟨gone, rfl, .inl rfl⟩
  | @refused thread link messages => exact ⟨gone, rfl, .inr ⟨thread, messages, rfl⟩⟩
  | probed _ upgraded | upgraded _ upgraded =>
    rw [closed] at upgraded
    cases upgraded
  | borrowed _ owned | dropped owned =>
    have lives := (Located.lives located).mpr (.inl owned)
    simp [gone] at lives
  | acquired _ kept | worked kept | unlocked kept =>
    rw [gone] at kept
    cases kept
  | @left thread handle outcome leaving =>
    refine (nobody thread ?_ ?_).elim
    · rw [leaving]
      simp
    · rw [leaving]
      simp

theorem run_gone {last : State τ T M} (located : state.Located) (gone : state.shared.value = none)
    (run : Reaches (step store) Free state last) :
    last.Located ∧ last.shared.value = none ∧ last.order = state.order ∧
      ∃ since, last.answers = state.answers ++ since ∧ ∀ entry ∈ since, ∃ messages, entry.2 = .refused messages := by
  induction run with
  | refl => exact ⟨located, gone, rfl, [], (List.append_nil _).symm, by simp⟩
  | tail _ move ih =>
    obtain ⟨located, gone, order, since, answers, refused⟩ := ih
    obtain ⟨action, _, stepped⟩ := move
    obtain ⟨still, same, next⟩ := step_gone located gone stepped
    refine ⟨step_located located stepped, still, same.trans order, ?_⟩
    rcases next with none | ⟨thread, messages, more⟩
    · exact ⟨since, none.trans answers, refused⟩
    · refine ⟨since ++ [(thread, .refused messages)], by rw [more, answers, List.append_assoc], ?_⟩
      intro entry member
      rcases List.mem_append.mp member with before | here
      · exact refused entry before
      · obtain rfl := List.mem_singleton.mp here
        exact ⟨messages, rfl⟩

/-- A call that has worked was not refused. -/
def Phase.Worked : Phase T M → Prop
  | .leaving _ (.refused _) => False
  | _ => True

/-- Whoever was refused came when the state was gone. -/
structure Refusing (state : State τ T M) : Prop where
  worked : ∀ thread, (state.phase thread).Worked
  gone : ∀ thread messages, (thread, .refused messages) ∈ state.answers → state.shared.value = none

theorem step_refusing (located : state.Located) (refusing : Refusing state)
    (stepped : step store action state = some after) : Refusing after := by
  have moved {thread : τ} {next : Phase T M} (worked : next.Worked) (other : τ) :
      (Function.update state.phase thread next other).Worked := by
    by_cases here : other = thread
    · rw [here, Function.update_self]
      exact worked
    · rw [Function.update_of_ne here]
      exact refusing.worked other
  -- what is refused stays refused, as nothing comes back
  have stays (thread : τ) (messages : List M) (before : (thread, .refused messages) ∈ state.answers) :
      after.shared.value = none :=
    (step_gone located (refusing.gone thread messages before) stepped).1
  cases step_cases stepped with
  | called => exact ⟨moved trivial, stays⟩
  | refused _ closed =>
    have gone := (Located.gone located).mpr closed
    exact ⟨moved trivial, fun _ _ _ => gone⟩
  | probed _ upgraded =>
    refine ⟨moved trivial, ?_⟩
    intro thread messages member
    rcases List.mem_append.mp member with before | here
    · exact stays thread messages before
    · cases List.mem_singleton.mp here
  | upgraded _ _ next =>
    rcases next with ⟨_, _, rfl⟩ | ⟨_, rfl⟩
    · exact ⟨moved trivial, stays⟩
    · exact ⟨moved trivial, stays⟩
  | borrowed => exact ⟨moved trivial, stays⟩
  | @acquired thread request value =>
    refine ⟨moved ?_, stays⟩
    cases request <;> trivial
  | @worked _ thread value left next kept work =>
    refine ⟨moved ?_, stays⟩
    generalize state.phase thread = phase at work
    cases work <;> trivial
  | unlocked kept ends =>
    refine ⟨moved ?_, stays⟩
    unfold Phase.outcome at ends
    split at ends <;> cases ends <;> trivial
  | @left thread handle outcome leaving =>
    have worked := refusing.worked thread
    rw [leaving] at worked
    have answered : ∀ other messages, (other, Outcome.refused messages) ∈ state.answers ++ [(thread, outcome)] →
        (state.leave thread handle outcome).shared.value = none := by
      intro other messages member
      rcases List.mem_append.mp member with before | here
      · exact stays other messages before
      · cases List.mem_singleton.mp here
        exact worked.elim
    cases handle with
    | listener => exact ⟨moved trivial, answered⟩
    | owner => exact ⟨moved trivial, answered⟩
  | dropped => exact ⟨refusing.worked, stays⟩

/-- The thread that goes on in its call, neither panicking nor using a guard. -/
def Action.next : Action τ T M → Option τ
  | .upgrade thread | .acquire thread | .store thread | .replace thread | .unlock thread | .leave thread => some thread
  | .call .. | .borrow .. | .panic .. | .change .. | .drop => none

def Goes (store : Store M T) (state : State τ T M) (thread : τ) : Prop :=
  ∃ action after, action.next = some thread ∧ step store action state = some after

omit [DecidableEq τ] [Inhabited T] in
private theorem not_shared (phase : Phase T M) : phase.access ≠ some .shared := by
  cases phase <;> simp [Phase.access]

private theorem goes_of (action : Action τ T M) (next : action.next = some thread)
    (enabled : (step store action state).isSome) :
    Goes store state thread := by
  obtain ⟨after, stepped⟩ := Option.isSome_iff_exists.mp enabled
  exact ⟨action, after, next, stepped⟩

private theorem holder_goes (located : state.Located) (inside : (state.phase thread).access = some .exclusive) :
    Goes store state thread := by
  have kept : state.shared.value.isSome := by
    apply Located.kept located
    apply inside_kept
    · intro idle
      rw [idle] at inside
      cases inside
    · intro link messages upgrading
      rw [upgrading] at inside
      cases inside
  obtain ⟨value, kept⟩ := Option.isSome_iff_exists.mp kept
  cases reached : state.phase thread with
  | idle | upgrading | locking | leaving =>
    rw [reached] at inside
    cases inside
  | storing handle stored rest =>
    cases rest with
    | nil => exact goes_of (.unlock thread) rfl (by simp [step, reached, kept, Phase.outcome])
    | cons message rest => exact goes_of (.store thread) rfl (by simp [step, reached, kept])
  | taking => exact goes_of (.replace thread) rfl (by simp [step, reached, kept])
  | unwinding | replaced | holding =>
    exact goes_of (.unlock thread) rfl (by simp [step, reached, kept, Phase.outcome])

theorem caller_goes (located : state.Located) (busy : state.phase thread ≠ .idle) :
    Goes store state thread ∨ ∃ holder, state.mutex.writer = some holder ∧ Goes store state holder := by
  cases holds : state.mutex.writer with
  | some holder => exact .inr ⟨holder, rfl, holder_goes located ((located.mutex.writer holder).mp holds)⟩
  | none =>
    left
    cases reached : state.phase thread with
    | idle => exact absurd reached busy
    | upgrading link messages =>
      refine goes_of (.upgrade thread) rfl ?_
      simp only [step, reached]
      split <;> rfl
    | locking request =>
      have readers : state.mutex.readers = ∅ := by
        apply Finset.eq_empty_of_forall_notMem
        intro other reading
        exact not_shared _ ((located.mutex.readers other).mp reading)
      have kept := Located.kept located (inside_kept busy (by simp [reached]))
      obtain ⟨value, kept⟩ := Option.isSome_iff_exists.mp kept
      exact goes_of (.acquire thread) rfl (by simp [step, reached, kept, SharedLock.write, holds, readers])
    | storing | unwinding | taking | replaced | holding =>
      exact holder_goes located (by rw [reached]; rfl)
    | leaving => exact goes_of (.leave thread) rfl (by simp [step, reached])

theorem run_refusing {allowed : Action τ T M → State τ T M → Prop} {start : T}
    (run : Reaches (step store) allowed (initial start) state) : Refusing state := by
  induction run with
  | refl => exact ⟨fun _ => trivial, fun _ _ member => by cases member⟩
  | tail before move ih =>
    obtain ⟨action, _, stepped⟩ := move
    exact step_refusing (run_located before) ih stepped

/-- The state of a `StoreLock` is there for everyone who needs it, and gone when nobody
does: from then on every listener is refused, and none was before. -/
theorem refusals_final {start : T} (run : Reaches (step store) Free (initial start) state) :
    (state.shared.value.isSome ↔ state.owned = true ∨ ∃ thread, (state.phase thread).counted = true) ∧
    (∀ thread messages, (thread, .refused messages) ∈ state.answers → state.shared.value = none) ∧
    (state.shared.value = none → ∀ last, Reaches (step store) Free state last →
      last.shared.value = none ∧ last.order = state.order ∧
        ∃ since, last.answers = state.answers ++ since ∧ ∀ entry ∈ since, ∃ messages, entry.2 = .refused messages) ∧
    ∀ thread, state.phase thread ≠ .idle →
      Goes store state thread ∨ ∃ holder, state.mutex.writer = some holder ∧ Goes store state holder := by
  have located := run_located run
  refine ⟨Located.lives located, (run_refusing run).gone, ?_, ?_⟩
  · intro gone last onward
    exact (run_gone located gone onward).2
  · intro thread busy
    exact caller_goes located busy

/-- The owner drops the `StoreLock` while a listener stores, and another listener comes
too late. -/
def outlived : List (Action Nat (List Nat) Nat) :=
  [.call 1 .listener [1], .upgrade 1, .acquire 1, .drop, .store 1, .call 2 .listener [2], .unlock 1, .leave 1, .upgrade 2]

theorem refusals_final_outlived : ∃ state : State Nat (List Nat) Nat,
    exec (step (Store.log Nat)) outlived (initial []) = some state ∧ state.owned = false ∧
      state.answers = [(1, .received [1]), (2, .refused [2])] ∧ state.shared.value = none := by
  have run : ∃ state : State Nat (List Nat) Nat, exec (step (Store.log Nat)) outlived (initial []) = some state ∧
      state.owned = false ∧ state.answers = [(1, .received [1]), (2, .refused [2])] := ⟨_, rfl, rfl, rfl⟩
  obtain ⟨state, executed, dropped, answers⟩ := run
  have final := (refusals_final (exec_reaches executed)).2.1 2 [2] (by simp [answers])
  exact ⟨state, executed, dropped, answers, final⟩

end Nosy.StoreLock
