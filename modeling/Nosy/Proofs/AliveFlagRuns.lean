import Nosy.General.Transition
import Nosy.Proofs.AliveFlag

/-! Runs of a notifier over listeners that may change their answers. The flags stay
faithful as long as `RawNotifier::count` is only called when no listener with a set
flag would answer false; the first such call breaks them. -/

namespace Nosy.AliveFlag
open RawNotifier RetainSwap
open Broadcast (Accepting table entries_table count_cases)
open EStateM (Result)

variable {ι M W : Type} {machine : ι → List M → W → Bool × W}

section Handles
variable {L V : Type} {call : Receive M L V} {handle after : Handle L} {first last : V}

theorem dropDeadListeners_table (accepting : Accepting handle)
    (dropped : handle.dropDeadListeners call first = (after, .ok () last)) :
    Accepting after ∧ (table handle).dropDeadListeners call first = (table after, .ok () last) := by
  rcases handle with raw | (raw | _)
  · cases pruned : raw.dropDeadListeners call first with
    | mk left outcome =>
      simp only [Handle.dropDeadListeners, pruned] at dropped
      cases dropped
      exact ⟨trivial, pruned⟩
  · cases pruned : raw.dropDeadListeners call first with
    | mk left outcome =>
      simp only [Handle.dropDeadListeners, Notifier.dropDeadListeners, pruned] at dropped
      cases dropped
      exact ⟨trivial, pruned⟩
  · exact accepting.elim

theorem dropDeadListeners_returns (total : Total call) (accepting : Accepting handle) (world : V) :
    ∃ after last, handle.dropDeadListeners call world = (after, .ok () last) := by
  rcases handle with raw | (raw | _)
  · obtain ⟨left, last, pruned⟩ := dropDeadListeners_total total raw world
    exact ⟨.raw left, last, by simp only [Handle.dropDeadListeners, pruned]⟩
  · obtain ⟨left, last, pruned⟩ := dropDeadListeners_total total raw world
    exact ⟨.shared (.opened left), last, by
      simp only [Handle.dropDeadListeners, Notifier.dropDeadListeners, pruned]⟩
  · exact accepting.elim

end Handles

private theorem returned_some {α : Type} {registered : Nat} {after : System ι M W}
    {result : Handle (Registration ι) × Result Failure (Recorded (Registration ι) M W) α}
    (returned : System.returned registered result = some after) :
    after.registered = registered ∧ ∃ value, result = (after.handle, .ok value after.record) := by
  rcases result with ⟨handle, ⟨value, record⟩ | _⟩
  · cases returned
    exact ⟨rfl, value, rfl⟩
  · cases returned

theorem receive_total (machine : ι → List M → W → Bool × W) : Total (receive machine) :=
  respond_total _

variable [DecidableEq ι]

structure Keeps (system : System ι M W) : Prop where
  accepting : Accepting system.handle
  records : Records system.handle.entries system.record.calls system.registered

private theorem initial_keeps (shared : Bool) (world : W) : Keeps (initial shared world : System ι M W) := by
  have empty : (Handle.new shared : Handle (Registration ι)).entries = [] := by cases shared <;> rfl
  refine ⟨by cases shared <;> exact trivial, ?_⟩
  constructor <;> simp [initial, empty]

variable {system after : System ι M W}

private theorem Keeps.notified (keeps : Keeps system) {messages : List M}
    (sent : System.returned system.registered
      (system.handle.notifyMany (receive machine) messages system.record) = some after) : Keeps after := by
  obtain ⟨same, value, sent⟩ := returned_some sent
  obtain ⟨accepting, delivered⟩ := Broadcast.notifyMany_ok keeps.accepting sent
  refine ⟨accepting, ?_⟩
  rw [same]
  exact keeps.records.delivered delivered

private theorem Keeps.dropped (keeps : Keeps system)
    (dropped : System.returned system.registered
      (system.handle.dropDeadListeners (receive machine) system.record) = some after) : Keeps after := by
  obtain ⟨same, value, dropped⟩ := returned_some dropped
  obtain ⟨accepting, pruned⟩ := dropDeadListeners_table keeps.accepting dropped
  have records := keeps.records
  rw [entries_table] at records
  refine ⟨accepting, ?_⟩
  rw [same, entries_table]
  exact (records.pruned pruned).1

private theorem Keeps.counted (keeps : Keeps system) (heeded : heeds machine .count system = true)
    (counted : System.returned system.registered
      (system.handle.count (receive machine) system.record) = some after) : Keeps after := by
  obtain ⟨same, total, finished⟩ := returned_some counted
  obtain ⟨handle, record, registered⟩ := system
  obtain ⟨left, ended, number⟩ := after
  obtain ⟨accepting, records⟩ := keeps
  dsimp only at same accepting records finished
  subst same
  rcases count_cases accepting finished with ⟨raw, rfl, rfl, asks⟩ | ⟨raw, pruned, rfl, rfl, dropped, _⟩
  · obtain ⟨asked, same, pass, _⟩ := count_asks asks
    have answers := (unanimous_iff same pass).mp heeded
    have kept := records.counted (.of_eq same) answers
    rw [← pass_calls pass] at kept
    exact ⟨trivial, kept⟩
  · exact ⟨trivial, (records.pruned dropped).1⟩

section Steps
variable [VecGrowth]

private theorem Keeps.listened (keeps : Keeps system) {listener : ι}
    (stored : System.returned (system.registered + 1)
      (system.handle.listen (receive machine) ⟨system.registered, listener⟩ system.record) = some after) :
    Keeps after := by
  obtain ⟨same, value, stored⟩ := returned_some stored
  obtain ⟨accepting, registered⟩ := Broadcast.listen_table keeps.accepting stored
  have records := keeps.records
  rw [entries_table] at records
  refine ⟨accepting, ?_⟩
  rw [same, entries_table]
  exact records.registers registered

theorem step_keeps {op : Op ι M W} (keeps : Keeps system) (heeded : heeds machine op system = true)
    (stepped : step machine op system = some after) : Keeps after := by
  cases op with
  | listen listener => exact keeps.listened stepped
  | listenRaw listener =>
    simp only [step, Broadcast.listenRaw_eq] at stepped
    exact keeps.listened stepped
  | notify message =>
    simp only [step, Broadcast.notify_eq] at stepped
    exact keeps.notified stepped
  | notifyMany messages => exact keeps.notified stepped
  | count => exact keeps.counted heeded stepped
  | dropDeadListeners => exact keeps.dropped stepped
  | evolve world =>
    cases stepped
    exact ⟨keeps.accepting, keeps.records⟩

theorem run_keeps {shared : Bool} {world : W}
    (run : Transition.Reaches (step machine) (fun op before => heeds machine op before = true)
      (initial shared world) system) : Keeps system :=
  run.invariant (fun _ _ _ heeded stepped keeps => step_keeps keeps heeded stepped) (initial_keeps shared world)

omit [DecidableEq ι] in
/-- No listener can block an operation. -/
theorem step_returns (machine : ι → List M → W → Bool × W) (op : Op ι M W) (accepting : Accepting system.handle) :
    ∃ after, step machine op system = some after := by
  have total := receive_total machine
  cases op with
  | listen listener =>
    obtain ⟨handle, last, stored⟩ := Broadcast.listen_total total ⟨system.registered, listener⟩ accepting system.record
    exact ⟨_, by rw [step, stored]; rfl⟩
  | listenRaw listener =>
    obtain ⟨handle, last, stored⟩ := Broadcast.listen_total total ⟨system.registered, listener⟩ accepting system.record
    exact ⟨_, by rw [step, Broadcast.listenRaw_eq, stored]; rfl⟩
  | notify message =>
    obtain ⟨handle, last, sent⟩ := Broadcast.notifyMany_total total [message] accepting system.record
    exact ⟨_, by rw [step, Broadcast.notify_eq, sent]; rfl⟩
  | notifyMany messages =>
    obtain ⟨handle, last, sent⟩ := Broadcast.notifyMany_total total messages accepting system.record
    exact ⟨_, by rw [step, sent]; rfl⟩
  | count =>
    obtain ⟨handle, counted, last, asked⟩ := Broadcast.count_total total accepting system.record
    exact ⟨_, by rw [step, asked]; rfl⟩
  | dropDeadListeners =>
    obtain ⟨handle, last, dropped⟩ := dropDeadListeners_returns total accepting system.record
    exact ⟨_, by rw [step, dropped]; rfl⟩
  | evolve world => exact ⟨_, rfl⟩

omit [VecGrowth] in
private theorem Keeps.overlooked (keeps : Keeps system)
    (counted : System.returned system.registered
      (system.handle.count (receive machine) system.record) = some after)
    (faithful : Faithful after) : heeds machine .count system = true := by
  obtain ⟨_, total, finished⟩ := returned_some counted
  obtain ⟨handle, record, registered⟩ := system
  obtain ⟨left, ended, number⟩ := after
  obtain ⟨accepting, records⟩ := keeps
  dsimp only at accepting records finished
  rcases count_cases accepting finished with ⟨raw, rfl, rfl, asks⟩ | ⟨raw, pruned, rfl, rfl, _, _⟩
  · obtain ⟨asked, same, pass, _⟩ := count_asks asks
    obtain ⟨distinct, reached, _⟩ := records.queried (.of_eq same)
    apply (unanimous_iff same pass).mpr
    intro item listed
    obtain ⟨stored, flag⟩ := reached item listed
    have told : ∀ call ∈ callsOn item.1.listener (made ([] : List M) asked), call.answer = true := by
      intro call called
      apply (faithful item.1 stored).mp flag call
      dsimp only
      rw [pass_calls pass, records.callsSince_append stored]
      exact List.mem_append_right _ called
    exact (answers_iff distinct listed).mp told
  · rfl

/-- The condition is exact: one step away from a run that meets it, the flags are
faithful iff that step meets it too. -/
theorem step_faithful_iff {op : Op ι M W} (keeps : Keeps system) (stepped : step machine op system = some after) :
    Faithful after ↔ heeds machine op system = true := by
  constructor
  · intro faithful
    cases op with
    | count => exact keeps.overlooked stepped faithful
    | listen _ | listenRaw _ | notify _ | notifyMany _ | dropDeadListeners | evolve _ => rfl
  · intro heeded
    exact (step_keeps keeps heeded stepped).records.faithful

end Steps

private theorem Keeps.counts (keeps : Keeps system) {left : Handle (Registration ι)} {total : Nat}
    {last : Recorded (Registration ι) M W}
    (counted : system.handle.count (receive machine) system.record = (left, .ok total last)) :
    ∃ asked, last.calls = system.record.calls ++ asked ∧ total = asked.countP (·.answer) ∧
      ∀ call ∈ asked, ∀ earlier ∈ callsOn call.listener system.record.calls, earlier.answer = true := by
  have records := keeps.records
  rcases count_cases keeps.accepting counted with ⟨raw, shape, _, asks⟩ | ⟨raw, pruned, shape, _, dropped, number⟩
  · rw [shape] at records
    obtain ⟨asked, same, pass, rfl⟩ := count_asks asks
    refine ⟨made [] asked, pass_calls pass, ?_, fun call called => records.trusted (.of_eq same) called⟩
    rw [made, List.countP_map]
    rfl
  · rw [shape] at records
    obtain ⟨asked, same, pass, kept, _⟩ := dropDeadListeners_asks dropped
    refine ⟨made [] asked, pass_calls pass, ?_, fun call called => records.trusted same called⟩
    rw [number, kept, List.length_map, made, List.countP_map, ← List.countP_eq_length_filter]
    rfl

private theorem Keeps.removes (keeps : Keeps system) {left : Handle (Registration ι)}
    {last : Recorded (Registration ι) M W}
    (dropped : system.handle.dropDeadListeners (receive machine) system.record = (left, .ok () last)) :
    ∀ entry ∈ left.entries, ∀ call ∈ callsOn entry.listener last.calls, call.answer = true := by
  have records := keeps.records
  rw [entries_table] at records
  obtain ⟨_, pruned⟩ := dropDeadListeners_table keeps.accepting dropped
  obtain ⟨kept, flagged, _⟩ := records.pruned pruned
  intro entry member
  rw [entries_table] at member
  exact (kept.flags entry member).mp (flagged entry member).2

/-- In every run that calls `RawNotifier::count` only when no answer of it has to be
recorded, each `was_alive` is true iff every call on its listener since it was
stored has returned true; and the next operation, which always returns, keeps this
iff it meets the condition too. Entries that have ever answered false are not
counted and do not outlive the next prune. -/
theorem flags_faithful [VecGrowth] (machine : ι → List M → W → Bool × W) (shared : Bool) (world : W)
    {system : System ι M W}
    (run : Transition.Reaches (step machine) (fun op before => heeds machine op before = true)
      (initial shared world) system) :
    Faithful system ∧
      (∀ op, ∃ after, step machine op system = some after ∧ (Faithful after ↔ heeds machine op system = true)) ∧
      (∃ left total last asked,
        system.handle.count (receive machine) system.record = (left, .ok total last) ∧
        last.calls = system.record.calls ++ asked ∧ total = asked.countP (·.answer) ∧
        ∀ call ∈ asked, ∀ earlier ∈ callsOn call.listener system.record.calls, earlier.answer = true) ∧
      ∃ left last, system.handle.dropDeadListeners (receive machine) system.record = (left, .ok () last) ∧
        ∀ entry ∈ left.entries, ∀ call ∈ callsOn entry.listener last.calls, call.answer = true := by
  have keeps := run_keeps run
  refine ⟨keeps.records.faithful, ?_, ?_, ?_⟩
  · intro op
    obtain ⟨after, stepped⟩ := step_returns machine op keeps.accepting
    exact ⟨after, stepped, step_faithful_iff keeps stepped⟩
  · obtain ⟨left, total, last, counted⟩ :=
      Broadcast.count_total (receive_total machine) keeps.accepting system.record
    obtain ⟨asked, calls, number, trusted⟩ := keeps.counts counted
    exact ⟨left, total, last, asked, counted, calls, number, trusted⟩
  · obtain ⟨left, last, dropped⟩ :=
      dropDeadListeners_returns (receive_total machine) keeps.accepting system.record
    exact ⟨left, last, dropped, keeps.removes dropped⟩

/-- A listener that answers whatever its owner has last set. -/
def switch : Unit → List Nat → Bool → Bool × Bool := fun _ _ on => (on, on)

theorem flags_faithful_switch :
    ∃ system, Transition.exec (@step _ _ _ .usual switch)
        [.listen (), .evolve false, .notify 4, .evolve true, .count] (initial false true) = some system ∧
      Faithful system ∧ system.handle.entries = [⟨⟨0, ()⟩, false⟩] :=
  ⟨_, rfl, (@flags_faithful _ _ _ _ .usual switch false true _ (Transition.guarded_reaches
    (show Transition.exec (Transition.guarded (@step _ _ _ .usual switch) fun op before => heeds switch op before = true)
      [.listen (), .evolve false, .notify 4, .evolve true, .count] (initial false true) = some _ from rfl))).1, rfl⟩

/-- A false answer that `RawNotifier::count` hears is forgotten: the flag stays true,
and once the switch is back on the entry is counted as alive. -/
theorem count_forgets_switch :
    ∃ system after last, Transition.exec (@step _ _ _ .usual switch)
        [.listen (), .evolve false, .count] (initial false true) = some system ∧
      ¬ Faithful system ∧
      @step _ _ _ .usual switch (.evolve true) system = some after ∧
      after.handle.count (receive switch) after.record = (.raw ⟨[⟨⟨0, ()⟩, true⟩], 4⟩, .ok 1 last) := by
  refine ⟨_, _, _, rfl, ?_, rfl, rfl⟩
  intro faithful
  have told := (faithful ⟨⟨0, ()⟩, true⟩ (by decide)).mp rfl ⟨⟨0, ()⟩, [], false⟩ (by decide)
  cases told

end Nosy.AliveFlag
