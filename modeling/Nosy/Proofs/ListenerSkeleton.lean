import Nosy.Listener
import Nosy.Proofs.NotifierTable

/-! What delivery leaves alone: who is alive, which gates are open, which
notifiers are owned or closed, and which listeners they hold. Everything that a
call of `receive` decides depends on this skeleton only. -/

namespace Nosy
open RawNotifier
open EStateM (Result)

variable {M C : Type}

/-- The listeners of a notifier, none if it is closed. -/
def World.table (world : World M C) (id : Nat) : Option (List (Listener M)) :=
  match (world.notifiers id).notifier with
  | .opened raw => some (raw.listeners.map (·.listener))
  | .closed => none

theorem World.table_opened {world : World M C} {id : Nat} {raw : RawNotifier (Listener M)}
    (opened : (world.notifiers id).notifier = .opened raw) :
    world.table id = some (raw.listeners.map (·.listener)) := by
  simp only [World.table, opened]

structure Same (before after : World M C) : Prop where
  flags : ∀ id, (after.flags id).alive = (before.flags id).alive
  stores : ∀ id, (after.stores id).alive = (before.stores id).alive
  gates : after.gates = before.gates
  owned : ∀ id, (after.notifiers id).owned = (before.notifiers id).owned
  table : ∀ id, after.table id = before.table id

namespace Same
variable {before middle after : World M C}

theorem refl (world : World M C) : Same world world :=
  ⟨fun _ => rfl, fun _ => rfl, rfl, fun _ => rfl, fun _ => rfl⟩

theorem trans (first : Same before middle) (second : Same middle after) : Same before after :=
  ⟨fun id => (second.flags id).trans (first.flags id), fun id => (second.stores id).trans (first.stores id),
    second.gates.trans first.gates, fun id => (second.owned id).trans (first.owned id),
    fun id => (second.table id).trans (first.table id)⟩

private theorem symm (same : Same before after) : Same after before :=
  ⟨fun id => (same.flags id).symm, fun id => (same.stores id).symm, same.gates.symm,
    fun id => (same.owned id).symm, fun id => (same.table id).symm⟩

theorem setFlag (world : World M C) (id : Nat) : Same world (world.setFlag id) := by
  refine ⟨fun other => ?_, fun _ => rfl, rfl, fun _ => rfl, fun _ => rfl⟩
  by_cases equal : other = id
  · subst other
    simp [World.setFlag]
  · simp [World.setFlag, Function.update_of_ne equal]

theorem record (world : World M C) (store : Store M C) (id : Nat) (messages : List M) :
    Same world (world.record store id messages) := by
  refine ⟨fun _ => rfl, fun other => ?_, rfl, fun _ => rfl, fun _ => rfl⟩
  by_cases equal : other = id
  · subst other
    simp [World.record]
  · simp [World.record, Function.update_of_ne equal]

theorem setNotifier {world : World M C} {id : Nat} {raw updated : RawNotifier (Listener M)}
    (opened : world.table id = some (raw.listeners.map (·.listener)))
    (kept : updated.listeners.map (·.listener) = raw.listeners.map (·.listener)) :
    Same world (world.setNotifier id (.opened updated)) := by
  refine ⟨fun _ => rfl, fun _ => rfl, rfl, fun other => ?_, fun other => ?_⟩
  · by_cases equal : other = id
    · subst other
      simp [World.setNotifier]
    · simp [World.setNotifier, Function.update_of_ne equal]
  · by_cases equal : other = id
    · subst other
      rw [opened, ← kept]
      simp [World.setNotifier, World.table]
    · simp [World.setNotifier, World.table, Function.update_of_ne equal]

end Same

namespace Listener

/-- The liveness that `receive` reports. -/
def alive (world : World M C) : Listener M → Bool
  | .flag id => (world.flags id).alive
  | .storeLock id | .weak id => (world.stores id).alive
  | .null => false
  | .filter _ _ _ _ target => target.alive world
  | .gate id target => world.gates id && target.alive world
  | .pair first second => first.alive world || second.alive world
  | .forward id => (world.notifiers id).owned

theorem alive_same {before after : World M C} (same : Same before after) (listener : Listener M) :
    listener.alive after = listener.alive before := by
  induction listener with
  | flag id => exact same.flags id
  | storeLock id | weak id => exact same.stores id
  | null => rfl
  | filter _ _ _ _ target ih => exact ih
  | gate id target ih => simp only [alive, same.gates, ih]
  | pair first second left right => simp only [alive, left, right]
  | forward id => exact same.owned id

/-- The notifiers a listener forwards to directly. -/
def targets : Listener M → List Nat
  | .flag _ | .storeLock _ | .weak _ | .null => []
  | .filter _ _ _ _ target | .gate _ target => target.targets
  | .pair first second => first.targets ++ second.targets
  | .forward id => [id]

/-- Some batch sent to the listener would get to a notifier that is closed. -/
inductive ReachesClosed (world : World M C) : Listener M → Prop where
  | filter {function : M → Option M} {zeroSized : Bool} {batch : Nat} {positive : 0 < batch} {target : Listener M} :
      ReachesClosed world target → ReachesClosed world (.filter function zeroSized batch positive target)
  | gate {id : Nat} {target : Listener M} : world.gates id = true →
      ReachesClosed world target → ReachesClosed world (.gate id target)
  | first {first second : Listener M} : ReachesClosed world first → ReachesClosed world (.pair first second)
  | second {first second : Listener M} : ReachesClosed world second → ReachesClosed world (.pair first second)
  | closed {id : Nat} : (world.notifiers id).owned = true → world.table id = none →
      ReachesClosed world (.forward id)
  | through {id : Nat} {listeners : List (Listener M)} {listener : Listener M} :
      (world.notifiers id).owned = true → world.table id = some listeners → listener ∈ listeners →
      ReachesClosed world listener → ReachesClosed world (.forward id)

private theorem ReachesClosed.same {before after : World M C} (same : Same before after) {listener : Listener M}
    (reaches : ReachesClosed before listener) : ReachesClosed after listener := by
  induction reaches with
  | filter _ ih => exact .filter ih
  | gate isOpen _ ih => exact .gate (by rw [same.gates, isOpen]) ih
  | first _ ih => exact .first ih
  | second _ ih => exact .second ih
  | closed owned table => exact .closed ((same.owned _).trans owned) ((same.table _).trans table)
  | through owned table member _ ih =>
    exact .through ((same.owned _).trans owned) ((same.table _).trans table) member ih

theorem reachesClosed_same {before after : World M C} (same : Same before after) {listener : Listener M} :
    ReachesClosed after listener ↔ ReachesClosed before listener :=
  ⟨.same same.symm, .same same⟩

end Listener

/-- Every forwarder in a table leads to a notifier of smaller rank. -/
def Ranks (rank : Nat → Nat) (world : World M C) : Prop :=
  ∀ id listeners, world.table id = some listeners → ∀ listener ∈ listeners, ∀ target ∈ listener.targets,
    rank target < rank id

/-- The forwarding graph has no cycle. -/
def Acyclic (world : World M C) : Prop := ∃ rank, Ranks rank world

/-- Nor has it one with the listener in this notifier's table. -/
def AcyclicWith (world : World M C) (id : Nat) (listener : Listener M) : Prop :=
  ∃ rank, Ranks rank world ∧ ∀ target ∈ listener.targets, rank target < rank id

theorem Ranks.same {rank : Nat → Nat} {before after : World M C} (ranks : Ranks rank before)
    (same : Same before after) : Ranks rank after :=
  fun id listeners table => ranks id listeners ((same.table id).symm.trans table)

/-- `fuel` suffices for every forwarder in the listener. -/
def Listener.Within (rank : Nat → Nat) (fuel : Nat) (listener : Listener M) : Prop :=
  ∀ target ∈ listener.targets, rank target < fuel

theorem Listener.exists_within (rank : Nat → Nat) (listener : Listener M) :
    ∃ bound, ∀ fuel, bound ≤ fuel → listener.Within rank fuel := by
  induction listener with
  | flag | storeLock | weak | null => exact ⟨0, fun fuel _ target member => by simp [targets] at member⟩
  | filter _ _ _ _ target ih => exact ih
  | gate id target ih => exact ih
  | pair first second left right =>
    obtain ⟨one, first⟩ := left
    obtain ⟨two, second⟩ := right
    refine ⟨max one two, fun fuel enough target member => ?_⟩
    rcases List.mem_append.mp member with member | member
    · exact first fuel (by omega) target member
    · exact second fuel (by omega) target member
  | forward id =>
    refine ⟨rank id + 1, fun fuel enough target member => ?_⟩
    rw [List.mem_singleton.mp member]
    omega

end Nosy
