import Nosy.DirtyFlag
import Nosy.Proofs.NotifierTable

/-! A reader whose flag is clear has the current value, in every interleaving.
Once a registered reader has completed a round, a value it has not seen is
announced: by the flag, by a writer about to notify, or by its own next read. -/

namespace Nosy.DirtyFlag
open Transition RawNotifier
open EStateM (Result)

/-- What a listener answers while `shared` is what it is. -/
def interested (shared : Shared) : Listener → Bool
  | .flag => true
  | .other id => shared.alive id

theorem receive_total : Total receive
  | .flag, _, _ => ⟨_, _, rfl⟩
  | .other _, _, _ => ⟨_, _, rfl⟩

theorem receive_answers (shared : Shared) :
    Answers receive (· = shared) (interested shared) := by
  rintro listener before alive after rfl called
  cases listener <;> cases called <;> exact ⟨rfl, rfl⟩

/-- A delivery lowers no flag and lets nobody die. -/
def Grows (before after : Shared) : Prop :=
  after.alive = before.alive ∧ (before.flag = true → after.flag = true)

private theorem Grows.refl (shared : Shared) : Grows shared shared := ⟨rfl, id⟩

private theorem Grows.trans {before middle after : Shared} (first : Grows before middle) (second : Grows middle after) :
    Grows before after :=
  ⟨second.1.trans first.1, second.2 ∘ first.2⟩

theorem receive_grows {listener : Listener} {messages : List Unit} {before after : Shared} {alive : Bool}
    (called : receive listener messages before = .ok alive after) :
    Grows before after ∧ alive = interested before listener := by
  cases listener with
  | flag =>
    cases called
    refine ⟨⟨?_, fun raised => ?_⟩, rfl⟩
    · split <;> rfl
    · split
      · exact raised
      · rfl
  | other id =>
    cases called
    exact ⟨Grows.refl _, rfl⟩

/-- `notify` raises the flag of a registered reader and leaves it registered. -/
theorem notifyMany_raises {raw after : RawNotifier Listener} {first last : Shared}
    (notified : raw.notifyMany receive [()] first = (after, .ok () last))
    (registered : ⟨.flag, true⟩ ∈ raw.listeners) : last.flag = true ∧ ⟨.flag, true⟩ ∈ after.listeners := by
  simp only [RawNotifier.notifyMany] at notified
  cases delivered : deliver receive [()] raw.listeners first with
  | mk updated outcome =>
    simp only [delivered, Prod.mk.injEq] at notified
    obtain ⟨rfl, rfl⟩ := notified
    constructor
    · obtain ⟨before, alive, middle, _, called, later⟩ := deliver_calls Grows.refl Grows.trans
        (fun _ _ _ _ _ _ called => (receive_grows called).1) delivered registered
      cases called
      exact later.2 rfl
    · have each : ∀ entry ∈ raw.listeners, ∀ before alive after, before.alive = first.alive →
          receive entry.listener [()] before = .ok alive after →
          alive = interested first entry.listener ∧ after.alive = first.alive := by
        intro entry _ before alive after same called
        obtain ⟨grows, rfl⟩ := receive_grows called
        refine ⟨?_, grows.1.trans same⟩
        cases entry.listener <;> simp [interested, same]
      obtain ⟨flags, _⟩ := deliver_flags each rfl delivered
      rw [flags]
      exact List.mem_map.mpr ⟨_, registered, rfl⟩

theorem register_flag [VecGrowth] {raw after : RawNotifier Listener} {listener : Listener} {first last : Shared}
    (listened : raw.register receive listener first = (after, .ok () last)) :
    last = first ∧ (⟨.flag, true⟩ ∈ raw.listeners → ⟨.flag, true⟩ ∈ after.listeners) ∧
      (listener = .flag → ⟨.flag, true⟩ ∈ after.listeners) := by
  obtain ⟨same, registers⟩ := register_registers (receive_answers first) rfl listened
  refine ⟨same, fun member => registers.keeps _ member rfl rfl, ?_⟩
  rintro rfl
  exact registers.added rfl

variable {S V : Type} [LoadStore S V]

structure Valid (state : State S V) : Prop where
  table : ∃ raw, state.notifier = .opened raw ∧ (state.registered = true → ⟨.flag, true⟩ ∈ raw.listeners)
  rounds : 0 < state.rounds → state.registered = true
  announced : 0 < state.rounds → state.shared.flag = true ∨ (∃ writer, state.writers writer = .replaced) ∨
    state.reader = .cleared ∨ state.lastRead = some (LoadStore.get state.container)

private theorem initial_valid (value : V) (flag : Bool) (alive : Nat → Bool) :
    Valid (initial value flag alive : State S V) :=
  ⟨⟨.new, rfl, by simp [initial]⟩, by simp [initial], by simp [initial]⟩

theorem replace_valid {state : State S V} (valid : Valid state) (writer : Nat) (value : V) :
    Valid (state.replace writer value) :=
  ⟨valid.table, valid.rounds, fun _ => .inr (.inl ⟨writer, Function.update_self ..⟩)⟩

/-- A writer that was not about to notify may do anything but replace the value. -/
private theorem moved_valid {state : State S V} (valid : Valid state) {writer : Nat} {next : Writer V}
    (other : state.writers writer ≠ .replaced) :
    Valid { state with writers := Function.update state.writers writer next } := by
  refine ⟨valid.table, valid.rounds, fun completed => ?_⟩
  rcases valid.announced completed with raised | ⟨pending, replaced⟩ | reading | current
  · exact .inl raised
  · have different : pending ≠ writer := by
      rintro rfl
      exact other replaced
    exact .inr (.inl ⟨pending, (Function.update_of_ne different ..).trans replaced⟩)
  · exact .inr (.inr (.inl reading))
  · exact .inr (.inr (.inr current))

theorem replaceIfUnequal_valid {state : State S V} (valid : Valid state) (writer : Nat) (value : V) :
    Valid (state.replaceIfUnequal writer value) := by
  unfold State.replaceIfUnequal
  cases result : LoadStore.replaceIfUnequal value state.container with
  | mk reply container =>
    cases reply with
    | ok old => exact ⟨valid.table, valid.rounds, fun _ => .inr (.inl ⟨writer, Function.update_self ..⟩)⟩
    | error unused =>
      have same := (LoadStore.kept result).2
      refine ⟨valid.table, valid.rounds, fun completed => ?_⟩
      simpa only [same] using valid.announced completed

/-- After `notify` the flag is up, whatever the other writers are doing. -/
theorem notify_valid {state after : State S V} {writer : Nat} (valid : Valid state)
    (notified : state.notify writer = some after) : Valid after := by
  obtain ⟨raw, opened, registered⟩ := valid.table
  simp only [State.notify, opened, Notifier.notify, Notifier.notifyMany] at notified
  cases delivered : raw.notifyMany receive [()] state.shared with
  | mk table outcome =>
    cases outcome with
    | error failure stopped => simp [delivered] at notified
    | ok _ shared =>
      simp only [delivered, Option.some.injEq] at notified
      subst after
      refine ⟨⟨table, rfl, fun member => (notifyMany_raises delivered (registered member)).2⟩, valid.rounds, ?_⟩
      intro completed
      exact .inl (notifyMany_raises delivered (registered (valid.rounds completed))).1

section Runs
variable [VecGrowth]

/-- `listen` keeps the flag's entry, whichever entries it prunes. -/
theorem listen_valid {state after : State S V} {listener : Listener} (valid : Valid state)
    (listened : state.listen listener = some after) :
    Valid after ∧ (listener = .flag → Valid { after with registered := true }) := by
  obtain ⟨raw, opened, registered⟩ := valid.table
  simp only [State.listen, opened, Notifier.listen] at listened
  cases pushed : raw.listen receive listener state.shared with
  | mk table outcome =>
    cases outcome with
    | error failure stopped => simp [pushed] at listened
    | ok _ shared =>
      simp only [pushed, Option.some.injEq] at listened
      subst after
      obtain ⟨rfl, kept, added⟩ := register_flag pushed
      constructor
      · exact ⟨⟨table, rfl, fun member => kept (registered member)⟩, valid.rounds, valid.announced⟩
      · intro same
        exact ⟨⟨table, rfl, fun _ => added same⟩, fun _ => rfl, valid.announced⟩

theorem step_valid {action : Action V} {state after : State S V} (valid : Valid state)
    (stepped : step action state = some after) : Valid after := by
  cases action with
  | set writer value =>
    simp only [step] at stepped
    split at stepped
    · cases stepped
      exact replace_valid valid writer value
    · cases stepped
  | setIfUnequal writer value =>
    simp only [step] at stepped
    split at stepped
    · cases stepped
      exact replaceIfUnequal_valid valid writer value
    · cases stepped
  | updateRead writer change =>
    simp only [step] at stepped
    split at stepped
    next idle =>
      cases stepped
      exact moved_valid valid (by simp [idle])
    · cases stepped
  | updateReplace writer =>
    simp only [step] at stepped
    split at stepped
    · cases stepped
      exact replace_valid valid writer _
    · cases stepped
  | notify writer =>
    simp only [step] at stepped
    split at stepped
    · exact notify_valid valid stepped
    · cases stepped
  | getAndClear =>
    simp only [step] at stepped
    split at stepped
    · cases stepped
      exact ⟨valid.table, valid.rounds, fun _ => .inr (.inr (.inl rfl))⟩
    · cases stepped
  | get =>
    simp only [step] at stepped
    split at stepped
    · cases stepped
      refine ⟨valid.table, fun completed => ?_, fun _ => .inr (.inr (.inr rfl))⟩
      by_cases registered : state.registered = true
      · exact registered
      · exact valid.rounds (by simpa [registered] using completed)
    · cases stepped
  | register =>
    obtain ⟨middle, listened, rfl⟩ := Option.map_eq_some_iff.mp stepped
    exact (listen_valid valid listened).2 rfl
  | listenOther id => exact (listen_valid valid stepped).1
  | die id =>
    cases stepped
    exact ⟨valid.table, valid.rounds, valid.announced⟩

theorem run_valid {value : V} {flag : Bool} {alive : Nat → Bool} {state : State S V}
    (run : Reaches step Free (initial value flag alive) state) : Valid state :=
  run.invariant (fun _ _ _ _ stepped valid => step_valid valid stepped) (initial_valid value flag alive)

/-- A writer is never stuck before its notify, so the flag does come up. -/
theorem writer_notifies {value : V} {flag : Bool} {alive : Nat → Bool} {state : State S V} {writer : Nat}
    (run : Reaches step Free (initial value flag alive) state) (replaced : state.writers writer = .replaced) :
    ∃ after, step (.notify writer) state = some after := by
  obtain ⟨raw, opened, _⟩ := (run_valid run).table
  obtain ⟨updated, last, delivered⟩ := deliver_total [()] receive_total raw.listeners state.shared
  simp [step, replaced, State.notify, opened, Notifier.notify, Notifier.notifyMany, RawNotifier.notifyMany, delivered]

/-- No writer is between its replace and its notify, and the reader has nothing
to look at. -/
structure Quiet (state : State S V) : Prop where
  writers : ∀ writer, state.writers writer ≠ .replaced
  reader : state.reader ≠ .cleared
  rounds : 0 < state.rounds
  flag : state.shared.flag = false

theorem quiet_reader_current {value : V} {flag : Bool} {alive : Nat → Bool} {state : State S V}
    (run : Reaches step Free (initial value flag alive) state) (quiet : Quiet state) :
    state.lastRead = some (LoadStore.get state.container) := by
  rcases (run_valid run).announced quiet.rounds with raised | ⟨writer, replaced⟩ | reading | current
  · rw [quiet.flag] at raised
    cases raised
  · exact absurd replaced (quiet.writers writer)
  · exact absurd reading quiet.reader
  · exact current

end Runs

/-- The reader sees a value set while it listened, and an equal one is no news. -/
def seenOnce : List (Action Nat) :=
  [.listenOther 1, .register, .getAndClear, .get, .die 1, .set 0 5, .notify 0, .listenOther 2, .getAndClear, .get,
    .setIfUnequal 1 5]

theorem quiet_reader_current_seen : ∃ state : State (Lock Nat) Nat,
    Quiet state ∧ LoadStore.get state.container = 5 ∧ state.lastRead = some (LoadStore.get state.container) := by
  have run : ∃ state : State (Lock Nat) Nat,
      exec (@step _ _ _ .usual) seenOnce (initial 0 false fun _ => true) = some state ∧ Quiet state ∧
        LoadStore.get state.container = 5 := by
    refine ⟨_, rfl, ⟨fun writer => ?_, by decide, by decide, by decide⟩, by decide⟩
    cases writer with
    | zero => decide
    | succ writer => nofun
  obtain ⟨state, executed, quiet, five⟩ := run
  exact ⟨state, quiet, five, @quiet_reader_current _ _ _ .usual _ _ _ _ (exec_reaches executed) quiet⟩

end Nosy.DirtyFlag
