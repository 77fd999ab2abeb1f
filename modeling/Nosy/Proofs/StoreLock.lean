import Nosy.StoreLock

/-! What a step of a `StoreLock` can do, and who has the mutex and the references. -/

namespace Nosy.StoreLock
open Transition

variable {τ T M : Type} [DecidableEq τ] [Inhabited T] {store : Store M T}
variable {action : Action τ T M} {state after : State τ T M} {thread : τ} {next : Phase T M}

/-- What is done to the state with the mutex. -/
inductive Work (store : Store M T) (thread : τ) : Action τ T M → Phase T M → T → Phase T M → T → Prop
  | store {handle : Handle} {stored rest : List M} {message : M} {value : T} :
      Work store thread (.store thread) (.storing handle stored (message :: rest)) value
        (.storing handle (stored ++ [message]) rest) (store.receive [message] value)
  | panic {handle : Handle} {stored rest : List M} {message : M} {harm : T → T} {value : T} :
      Work store thread (.panic thread harm) (.storing handle stored (message :: rest)) value
        (.unwinding handle stored (message :: rest) harm) (harm value)
  | replace {value : T} : Work store thread (.replace thread) .taking value (.replaced value) default
  | change {change : T → T} {found value : T} :
      Work store thread (.change thread change) (.holding found) value (.holding found) (change value)

/-- What each step does, and when it can be taken. -/
inductive Stepped (store : Store M T) (state : State τ T M) : Action τ T M → State τ T M → Prop
  | called {thread : τ} {link : Link} {messages : List M} : state.phase thread = .idle →
      Stepped store state (.call thread link messages) (state.begin thread (some messages) (.upgrading link messages))
  | refused {thread : τ} {link : Link} {messages : List M} : state.phase thread = .upgrading link messages →
      state.shared.upgrade = none → Stepped store state (.upgrade thread) (state.answer thread (.refused messages))
  | probed {thread : τ} {shared : Counted T} : state.phase thread = .upgrading .weak [] →
      state.shared.upgrade = some shared → Stepped store state (.upgrade thread) (state.answer thread (.received []))
  | upgraded {thread : τ} {link : Link} {messages : List M} {shared : Counted T} {phase : Phase T M} :
      state.phase thread = .upgrading link messages → state.shared.upgrade = some shared →
      link = .listener ∧ messages = [] ∧ phase = .leaving .listener (.received []) ∨
        messages ≠ [] ∧ phase = .locking (.receive .listener messages) →
      Stepped store state (.upgrade thread) ({ state with shared }.move thread phase)
  | borrowed {thread : τ} {request : Request M} : state.phase thread = .idle → state.owned = true →
      request.borrows = true → Stepped store state (.borrow thread request)
        ({ state with borrowers := insert thread state.borrowers }.begin thread request.messages (.locking request))
  | acquired {thread : τ} {request : Request M} {value : T} {mutex : SharedLock τ} :
      state.phase thread = .locking request → state.shared.value = some value →
      state.mutex.write thread = some mutex →
      Stepped store state (.acquire thread) ({ state with mutex }.move thread (request.start value))
  | worked {action : Action τ T M} {thread : τ} {value left : T} {phase : Phase T M} :
      state.shared.value = some value → Work store thread action (state.phase thread) value phase left →
      Stepped store state action ({ state with shared := state.shared.put left }.move thread phase)
  | unlocked {thread : τ} {value : T} {handle : Handle} {outcome : Outcome T M} : state.shared.value = some value →
      (state.phase thread).outcome value = some (handle, outcome) →
      Stepped store state (.unlock thread) ({ state with
        mutex := state.mutex.release thread
        order := state.order ++ [(thread, outcome)] }.move thread (.leaving handle outcome))
  | left {thread : τ} {handle : Handle} {outcome : Outcome T M} : state.phase thread = .leaving handle outcome →
      Stepped store state (.leave thread) (state.leave thread handle outcome)
  | dropped : state.owned = true → state.borrowers = ∅ →
      Stepped store state .drop { state with owned := false, shared := state.shared.release }

theorem step_cases (stepped : step store action state = some after) : Stepped store state action after := by
  cases action with
  | call thread link messages =>
    simp only [step] at stepped
    split at stepped
    next idle =>
      cases stepped
      exact .called idle
    · cases stepped
  | upgrade thread =>
    simp only [step] at stepped
    split at stepped
    next link messages reached =>
      split at stepped
      next gone =>
        cases stepped
        exact .refused reached gone
      next upgraded =>
        cases stepped
        exact .probed reached upgraded
      next upgraded =>
        cases stepped
        exact .upgraded reached upgraded (.inl ⟨rfl, rfl, rfl⟩)
      next upgraded =>
        cases stepped
        exact .upgraded reached upgraded (.inr ⟨List.cons_ne_nil _ _, rfl⟩)
    · cases stepped
  | borrow thread request =>
    simp only [step] at stepped
    split at stepped
    next idle =>
      split at stepped
      next held =>
        cases stepped
        exact .borrowed idle held.1 held.2
      · cases stepped
    · cases stepped
  | acquire thread =>
    simp only [step] at stepped
    split at stepped
    next reached kept acquired =>
      cases stepped
      exact .acquired reached kept acquired
    · cases stepped
  | store thread | panic thread harm | replace thread | change thread change =>
    simp only [step] at stepped
    split at stepped
    next reached kept =>
      cases stepped
      apply Stepped.worked kept
      rw [reached]
      constructor
    · cases stepped
  | unlock thread =>
    simp only [step] at stepped
    split at stepped
    next handle outcome ends =>
      cases stepped
      obtain ⟨value, kept, ends⟩ := Option.bind_eq_some_iff.mp ends
      exact .unlocked kept ends
    · cases stepped
  | leave thread =>
    simp only [step] at stepped
    split at stepped
    next leaving =>
      cases stepped
      exact .left leaving
    · cases stepped
  | drop =>
    simp only [step] at stepped
    split at stepped
    next held =>
      cases stepped
      exact .dropped held.1 held.2
    · cases stepped

namespace Phase

/-- How a thread has the mutex. -/
def access : Phase T M → Option Access
  | .storing .. | .unwinding .. | .taking | .replaced _ | .holding _ => some .exclusive
  | .idle | .upgrading .. | .locking _ | .leaving .. => none

/-- A thread has a reference of its own. -/
def counted : Phase T M → Bool
  | .locking (.receive .listener _) | .storing .listener .. | .unwinding .listener .. | .leaving .listener _ => true
  | _ => false

/-- A thread borrows the owner's. -/
def borrows : Phase T M → Bool
  | .locking request => request.borrows
  | .storing .owner .. | .unwinding .owner .. | .leaving .owner _ | .taking | .replaced _ | .holding _ => true
  | _ => false

end Phase

/-- Who has the mutex, and who keeps the state. -/
structure Located (mutex : SharedLock τ) (shared : Counted T) (owned : Bool) (borrowers : Finset τ)
    (phase : τ → Phase T M) : Prop where
  mutex : mutex.Agrees fun thread => (phase thread).access
  counted : ∃ holders : Finset (Option τ), shared.Agrees holders ∧ (none ∈ holders ↔ owned = true) ∧
    ∀ thread, some thread ∈ holders ↔ (phase thread).counted = true
  borrowed : ∀ thread, thread ∈ borrowers ↔ (phase thread).borrows = true
  lent : borrowers.Nonempty → owned = true

def State.Located (state : State τ T M) : Prop :=
  StoreLock.Located state.mutex state.shared state.owned state.borrowers state.phase

omit [DecidableEq τ] [Inhabited T] in
private theorem start_access (request : Request M) (value : T) : (request.start value).access = some .exclusive := by
  cases request <;> rfl

omit [DecidableEq τ] [Inhabited T] in
private theorem start_counted (request : Request M) (value : T) :
    (request.start value).counted = (Phase.locking request : Phase T M).counted := by
  rcases request with ⟨handle, messages⟩ | _ | _
  · cases handle <;> rfl
  · rfl
  · rfl

omit [DecidableEq τ] [Inhabited T] in
private theorem start_borrows (request : Request M) (value : T) :
    (request.start value).borrows = (Phase.locking request : Phase T M).borrows := by
  rcases request with ⟨handle, messages⟩ | _ | _
  · cases handle <;> rfl
  · rfl
  · rfl

omit [DecidableEq τ] [Inhabited T] in
private theorem borrowing_uncounted {request : Request M} (borrows : request.borrows = true) :
    (Phase.locking request : Phase T M).counted = false := by
  rcases request with ⟨handle, messages⟩ | _ | _
  · cases handle
    · rfl
    · cases borrows
  · rfl
  · rfl

omit [DecidableEq τ] in
theorem work_same {phase : Phase T M} {value left : T} (work : Work store thread action phase value next left) :
    phase.access = some .exclusive ∧ next.access = phase.access ∧ next.counted = phase.counted ∧
      next.borrows = phase.borrows := by
  cases work with
  | @store handle => cases handle <;> exact ⟨rfl, rfl, rfl, rfl⟩
  | @panic handle => cases handle <;> exact ⟨rfl, rfl, rfl, rfl⟩
  | replace | change => exact ⟨rfl, rfl, rfl, rfl⟩

omit [DecidableEq τ] [Inhabited T] in
theorem outcome_same {phase : Phase T M} {value : T} {handle : Handle} {outcome : Outcome T M}
    (ends : phase.outcome value = some (handle, outcome)) :
    phase.access = some .exclusive ∧ (Phase.leaving handle outcome).counted = phase.counted ∧
      (Phase.leaving handle outcome).borrows = phase.borrows := by
  cases handle
  all_goals
    unfold Phase.outcome at ends
    split at ends <;> cases ends
    all_goals exact ⟨rfl, rfl, rfl⟩

section
variable {mutex : SharedLock τ} {shared : Counted T} {owned : Bool} {borrowers : Finset τ} {phase : τ → Phase T M}

omit [Inhabited T] in
private theorem flag_update {β : Type} (flag : Phase T M → β) (phase : τ → Phase T M) (thread : τ) (next : Phase T M) :
    (fun other => flag (Function.update phase thread next other)) =
      Function.update (fun other => flag (phase other)) thread (flag next) :=
  Function.comp_update flag phase thread next

omit [Inhabited T] in
private theorem flag_same {β : Type} (flag : Phase T M → β) (same : flag next = flag (phase thread)) :
    (fun other => flag (Function.update phase thread next other)) = fun other => flag (phase other) := by
  rw [flag_update, same]
  exact Function.update_eq_self thread _

omit [Inhabited T] in
private theorem flag_at {β : Type} (flag : Phase T M → β) (same : flag next = flag (phase thread)) (other : τ) :
    flag (Function.update phase thread next other) = flag (phase other) :=
  congrFun (flag_same flag same) other

omit [Inhabited T] in
/-- The references stay where they are, and the mutex goes to where the thread is. -/
private theorem Located.moved {after : SharedLock τ} {left : Counted T}
    (located : Located mutex shared owned borrowers phase)
    (agrees : after.Agrees (Function.update (fun other => (phase other).access) thread next.access))
    (kept : ∀ holders : Finset (Option τ), shared.Agrees holders → left.Agrees holders)
    (counted : next.counted = (phase thread).counted) (borrows : next.borrows = (phase thread).borrows) :
    Located after left owned borrowers (Function.update phase thread next) := by
  obtain ⟨holders, held, owner, callers⟩ := located.counted
  constructor
  · rw [flag_update]
    exact agrees
  · refine ⟨holders, kept holders held, owner, ?_⟩
    intro other
    rw [flag_at Phase.counted counted]
    exact callers other
  · intro other
    rw [flag_at Phase.borrows borrows]
    exact located.borrowed other
  · exact located.lent

omit [Inhabited T] in
private theorem Located.same {left : Counted T} (located : Located mutex shared owned borrowers phase)
    (kept : ∀ holders : Finset (Option τ), shared.Agrees holders → left.Agrees holders)
    (access : next.access = (phase thread).access) (counted : next.counted = (phase thread).counted)
    (borrows : next.borrows = (phase thread).borrows) :
    Located mutex left owned borrowers (Function.update phase thread next) := by
  apply located.moved ?_ kept counted borrows
  rw [access, Function.update_eq_self]
  exact located.mutex

omit [Inhabited T] in
private theorem Located.upgraded {left : Counted T} (located : Located mutex shared owned borrowers phase)
    (upgraded : shared.upgrade = some left) (outside : next.access = (phase thread).access)
    (without : (phase thread).counted = false) (counted : next.counted = true)
    (borrows : next.borrows = (phase thread).borrows) :
    Located mutex left owned borrowers (Function.update phase thread next) := by
  obtain ⟨holders, held, owner, callers⟩ := located.counted
  have fresh : some thread ∉ holders := by
    rw [callers, without]
    exact Bool.false_ne_true
  constructor
  · rw [flag_same Phase.access outside]
    exact located.mutex
  · refine ⟨insert (some thread) holders, held.upgrade upgraded fresh, by simpa using owner, ?_⟩
    intro other
    by_cases here : other = thread
    · simp [here, counted]
    · simp [here, callers]
  · intro other
    rw [flag_at Phase.borrows borrows]
    exact located.borrowed other
  · exact located.lent

omit [Inhabited T] in
private theorem Located.released (located : Located mutex shared owned borrowers phase)
    (outside : next.access = (phase thread).access) (counted : (phase thread).counted = true)
    (without : next.counted = false) (borrows : next.borrows = (phase thread).borrows) :
    Located mutex shared.release owned borrowers (Function.update phase thread next) := by
  obtain ⟨holders, held, owner, callers⟩ := located.counted
  constructor
  · rw [flag_same Phase.access outside]
    exact located.mutex
  · refine ⟨holders.erase (some thread), held.release ((callers thread).mpr counted), by simpa using owner, ?_⟩
    intro other
    by_cases here : other = thread
    · simp [here, without]
    · simp [here, callers]
  · intro other
    rw [flag_at Phase.borrows borrows]
    exact located.borrowed other
  · exact located.lent

omit [Inhabited T] in
private theorem Located.lends {after : Finset τ} (located : Located mutex shared owned borrowers phase)
    (outside : next.access = (phase thread).access) (counted : next.counted = (phase thread).counted)
    (borrows : ∀ other, other ∈ after ↔ if other = thread then next.borrows = true else other ∈ borrowers)
    (lent : after.Nonempty → owned = true) : Located mutex shared owned after (Function.update phase thread next) := by
  obtain ⟨holders, held, owner, callers⟩ := located.counted
  constructor
  · rw [flag_same Phase.access outside]
    exact located.mutex
  · refine ⟨holders, held, owner, ?_⟩
    intro other
    rw [flag_at Phase.counted counted]
    exact callers other
  · intro other
    rw [borrows]
    by_cases here : other = thread
    · simp [here]
    · simp [here, located.borrowed]
  · exact lent

omit [Inhabited T] in
private theorem Located.dropped (located : Located mutex shared owned borrowers phase) (left : owned = true)
    (unlent : borrowers = ∅) : Located mutex shared.release false borrowers phase := by
  obtain ⟨holders, held, owner, callers⟩ := located.counted
  refine ⟨located.mutex, ⟨holders.erase none, held.release (owner.mpr left), ?_, ?_⟩, located.borrowed, ?_⟩
  · simp
  · intro thread
    simpa using callers thread
  · intro someone
    exact absurd unlent someone.ne_empty

end

theorem step_located (located : state.Located) (stepped : step store action state = some after) : after.Located := by
  cases step_cases stepped with
  | called idle =>
    apply Located.same located (fun _ held => held) <;> rw [idle] <;> rfl
  | refused reached | probed reached =>
    apply Located.same located (fun _ held => held) <;> rw [reached] <;> rfl
  | upgraded reached upgraded next =>
    rcases next with ⟨_, _, rfl⟩ | ⟨_, rfl⟩
    all_goals
      apply Located.upgraded located upgraded <;> first | rw [reached]; rfl | rfl
  | @borrowed thread request idle owned borrows =>
    refine Located.lends located ?_ ?_ ?_ fun _ => owned
    · rw [idle]
      rfl
    · rw [idle]
      exact borrowing_uncounted borrows
    · intro other
      by_cases here : other = thread
      · simp [here, State.begin, State.move, Phase.borrows, borrows]
      · simp [here, State.begin, State.move]
  | @acquired thread request value mutex reached kept acquired =>
    refine Located.moved located ?_ (fun _ held => held) ?_ ?_
    · rw [start_access]
      exact located.mutex.write acquired
    · rw [reached, start_counted]
    · rw [reached, start_borrows]
  | worked kept work =>
    obtain ⟨_, access, counted, borrows⟩ := work_same work
    refine Located.same located ?_ access counted borrows
    intro holders held
    exact held.put (by simp [kept])
  | unlocked kept ends =>
    obtain ⟨_, counted, borrows⟩ := outcome_same ends
    refine Located.moved located ?_ (fun _ held => held) counted borrows
    exact located.mutex.release
  | @left thread handle outcome leaving =>
    cases handle with
    | listener => apply Located.released located <;> first | rw [leaving]; rfl | rfl
    | owner =>
      refine Located.lends located ?_ ?_ ?_ fun someone => located.lent (someone.mono (Finset.erase_subset _ _))
      · rw [leaving]
        rfl
      · rw [leaving]
        rfl
      · intro other
        by_cases here : other = thread
        · simp [here, State.leave, State.answer, Phase.borrows]
        · simp [here, State.leave, State.answer]
  | dropped owned unlent => exact Located.dropped located owned unlent

omit [DecidableEq τ] [Inhabited T] in
private theorem initial_located (value : T) : (initial value : State τ T M).Located := by
  constructor
  · exact SharedLock.Agrees.free
  · exact ⟨{none}, .new value, by simp [initial], by simp [initial, Phase.counted]⟩
  · simp [initial, Phase.borrows]
  · simp [initial]

theorem run_located {allowed : Action τ T M → State τ T M → Prop} {start : T}
    (run : Reaches (step store) allowed (initial start) state) : state.Located :=
  run.invariant (fun _ _ _ _ stepped located => step_located located stepped) (initial_located start)

omit [DecidableEq τ] [Inhabited T] in
/-- A thread with the mutex finds the state there. -/
theorem Located.kept {mutex : SharedLock τ} {shared : Counted T} {owned : Bool} {borrowers : Finset τ}
    {phase : τ → Phase T M} (located : Located mutex shared owned borrowers phase) {thread : τ}
    (inside : (phase thread).counted = true ∨ (phase thread).borrows = true) : shared.value.isSome := by
  obtain ⟨holders, held, owner, callers⟩ := located.counted
  rw [held.kept]
  rcases inside with counted | borrows
  · exact ⟨some thread, (callers thread).mpr counted⟩
  · exact ⟨none, owner.mpr (located.lent ⟨thread, (located.borrowed thread).mpr borrows⟩)⟩

end Nosy.StoreLock
