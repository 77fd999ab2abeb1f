import Nosy.Proofs.SourceNotify

/-! What reading and listening do to cells and sources. Values, generations and
destinations stay; tables lose only the dead, and gates are only closed. -/

namespace Nosy.Sources
open RawNotifier
open EStateM (Result)

variable {V : Type}

/-- The listener is not one for a gate that is still to be opened. -/
def Listener.Known (world : World V) : Listener → Prop
  | .inner _ gate => gate < world.nextGate
  | _ => True

structure Keeps (before after : World V) : Prop where
  values : ∀ id, (after.cells id).value = (before.cells id).value
  outers : ∀ id, (after.core id).map Prod.fst = (before.core id).map Prod.fst
  generations : ∀ id, after.generation id = before.generation id
  users : after.users = before.users
  closed : ∀ place, after.listenersAt place = none ↔ before.listenersAt place = none
  stores : ∀ place listener, listener.Known before → listener.alive after = true →
    before.Stores place listener → after.Stores place listener
  gates : ∀ gate, gate < before.nextGate → after.gates gate = true → before.gates gate = true
  nextGate : before.nextGate ≤ after.nextGate

namespace Keeps
variable {before middle after : World V}

private theorem known (keeps : Keeps before after) {listener : Listener} (known : listener.Known before) :
    listener.Known after := by
  cases listener with
  | user id | outer id => trivial
  | inner id gate => exact Nat.lt_of_lt_of_le known keeps.nextGate

private theorem alive (keeps : Keeps before after) {listener : Listener} (known : listener.Known before)
    (living : listener.alive after = true) : listener.alive before = true := by
  cases listener with
  | user id => simpa only [Listener.alive, keeps.users] using living
  | outer id => rfl
  | inner id gate => exact keeps.gates gate known living

theorem refl (world : World V) : Keeps world world :=
  ⟨fun _ => rfl, fun _ => rfl, fun _ => rfl, rfl, fun _ => .rfl, fun _ _ _ _ stored => stored, fun _ _ isOpen => isOpen,
    Nat.le_refl _⟩

theorem trans (first : Keeps before middle) (second : Keeps middle after) : Keeps before after where
  values id := (second.values id).trans (first.values id)
  outers id := (second.outers id).trans (first.outers id)
  generations id := (second.generations id).trans (first.generations id)
  users := second.users.trans first.users
  closed place := (second.closed place).trans (first.closed place)
  stores place listener known living stored :=
    second.stores place listener (first.known known) living
      (first.stores place listener known (second.alive (first.known known) living) stored)
  gates gate known isOpen :=
    first.gates gate known (second.gates gate (Nat.lt_of_lt_of_le known first.nextGate) isOpen)
  nextGate := Nat.le_trans first.nextGate second.nextGate

/-- A step that leaves all notifiers, values and generations, and opens no old gate. -/
theorem of_notifiers (notifiers : ∀ place, after.notifierAt place = before.notifierAt place)
    (values : ∀ id, (after.cells id).value = (before.cells id).value)
    (outers : ∀ id, (after.core id).map Prod.fst = (before.core id).map Prod.fst)
    (generations : ∀ id, after.generation id = before.generation id) (users : after.users = before.users)
    (gates : ∀ gate, gate < before.nextGate → after.gates gate = true → before.gates gate = true)
    (nextGate : before.nextGate ≤ after.nextGate) : Keeps before after := by
  refine ⟨values, outers, generations, users, fun place => ?_, fun place listener _ _ stored => ?_, gates, nextGate⟩
  · simp only [World.listenersAt, notifiers]
  · simpa only [World.Stores, notifiers] using stored

end Keeps

/-- Registered, or with a cell that has been dropped. -/
def World.Holds (world : World V) (listener : Listener) : Source V → Prop
  | .cell id => world.listenersAt (.cell id) = none ∨ world.Stores (.cell id) listener
  | .constant _ => True
  | .map _ source => world.Holds listener source
  | .flatten id => world.Stores (.flatten id) listener

theorem World.Holds.imp {before after : World V} {listener : Listener} {source : Source V}
    (holds : before.Holds listener source)
    (closed : ∀ id, before.listenersAt (.cell id) = none → after.listenersAt (.cell id) = none)
    (stores : ∀ place, before.Stores place listener → after.Stores place listener) : after.Holds listener source := by
  induction source with
  | cell id => exact Or.imp (closed id) (stores _) holds
  | constant value => trivial
  | map function source ih => exact ih holds
  | flatten id => exact stores _ holds

theorem World.Holds.keeps {before after : World V} {listener : Listener} {source : Source V}
    (holds : before.Holds listener source) (keeps : Keeps before after) (known : listener.Known before)
    (living : listener.alive after = true) : after.Holds listener source :=
  holds.imp (fun _ => (keeps.closed _).mpr) fun place => keeps.stores place listener known living

theorem World.Holds.steady {before after : World V} {listener : Listener} {source : Source V}
    (holds : before.Holds listener source) (steady : Steady before after) (living : listener.alive before = true) :
    after.Holds listener source :=
  holds.imp (fun _ => (steady.listeners _).trans) fun place => steady.stores place listener living

theorem World.Holds.notifiers {before after : World V} {listener : Listener} {source : Source V}
    (holds : before.Holds listener source) (same : ∀ place, after.notifierAt place = before.notifierAt place) :
    after.Holds listener source := by
  refine holds.imp (fun id closed => ?_) fun place stored => ?_
  · simpa only [World.listenersAt, same] using closed
  · simpa only [World.Stores, same] using stored

/-- Nothing but tables has changed. -/
structure OnlyTables (before after : World V) : Prop where
  keeps : Keeps before after
  core : ∀ id, after.core id = before.core id
  gates : after.gates = before.gates
  nextGate : after.nextGate = before.nextGate

private theorem OnlyTables.of_notifiers {before after : World V}
    (notifiers : ∀ place, after.notifierAt place = before.notifierAt place)
    (values : ∀ id, (after.cells id).value = (before.cells id).value) (core : ∀ id, after.core id = before.core id)
    (generations : ∀ id, after.generation id = before.generation id) (users : after.users = before.users)
    (gates : after.gates = before.gates) (nextGate : after.nextGate = before.nextGate) : OnlyTables before after where
  keeps := .of_notifiers notifiers values (fun id => by rw [core]) generations users
    (fun _ _ isOpen => gates ▸ isOpen) (Nat.le_of_eq nextGate.symm)
  core := core
  gates := gates
  nextGate := nextGate

theorem receive_asks {fuel : Nat} (before : World V) :
    Answers (World.receive fuel) (Silent before) (Listener.alive before) := by
  intro other start alive stop silent asked
  have received := World.receive_ok asked
  refine ⟨?_, silent.trans (received.2.silent rfl)⟩
  rw [received.1, silent.steady.listener_alive]

private theorem registers_onlyTables {place : Place} {listener : Listener} {raw table : RawNotifier Listener}
    {before last : World V} (registers : Registers (Listener.alive before) listener raw.listeners table.listeners)
    (silent : Silent before last) (found : before.notifierAt place = some (.opened raw))
    (written : (last.setNotifier place (.opened table)).notifierAt place = some (.opened table)) :
    OnlyTables before (last.setNotifier place (.opened table)) := by
  refine ⟨⟨?_, ?_, ?_, ?_, fun other => ?_, fun other entry _ living held => ?_, ?_, ?_⟩, ?_, ?_, ?_⟩
  · simpa using silent.steady.values
  · simp [silent.steady.core]
  · simpa using silent.generations
  · simpa using silent.users
  · by_cases equal : other = place
    · subst other
      simp [World.listenersAt, written, found]
    · rw [World.listenersAt, setNotifier_other last place _ equal, ← World.listenersAt, silent.steady.listeners]
  · have lives : entry.alive before = true := by
      rwa [setNotifier_alive, silent.steady.listener_alive] at living
    by_cases equal : other = place
    · subst other
      obtain ⟨stored, same, member⟩ := held
      rw [found] at same
      cases same
      exact ⟨table, written, registers.keeps _ member rfl lives⟩
    · simpa only [World.Stores, setNotifier_other last place _ equal] using
        silent.steady.stores other entry lives held
  · simp [silent.steady.gates]
  · simp [silent.steady.nextGate]
  · simpa using silent.steady.core
  · simpa using silent.steady.gates
  · simpa using silent.steady.nextGate

theorem listenersAt_some {world : World V} {place : Place} {listeners : List Listener}
    (listed : world.listenersAt place = some listeners) :
    ∃ raw, world.notifierAt place = some (.opened raw) ∧ raw.listeners.map (·.listener) = listeners := by
  unfold World.listenersAt at listed
  split at listed
  next raw found =>
    cases listed
    exact ⟨raw, found, rfl⟩
  · cases listed

private theorem setNotifier_found {world : World V} {place : Place} {notifier : Notifier Listener}
    (found : world.notifierAt place = some notifier) (other : Place) :
    (world.setNotifier place notifier).notifierAt other = world.notifierAt other := by
  by_cases equal : other = place
  · subst other
    rw [setNotifier_self _ found, found]
  · exact setNotifier_other world place _ equal

/-- Listening at a closed notifier does nothing, and at an open one it is a
registration in its table, which is then written back. -/
theorem operate_registered [VecGrowth] {receive : Receive Unit Listener (World V)} {place : Place} {listener : Listener}
    {before after : World V} (listened : World.operate place (Notifier.listen receive listener) before = .ok () after) :
    before.notifierAt place = some .closed ∧ after = before.setNotifier place .closed ∨
      ∃ raw table last, before.notifierAt place = some (.opened raw) ∧
        raw.register receive listener before = (table, .ok () last) ∧ after = last.setNotifier place (.opened table) := by
  cases found : before.notifierAt place with
  | none => simp [World.operate, found] at listened
  | some notifier =>
    cases notifier with
    | closed =>
      simp only [World.operate, found, Notifier.listen] at listened
      cases listened
      exact .inl ⟨rfl, rfl⟩
    | opened raw =>
      simp only [World.operate, found, Notifier.listen, RawNotifier.listen] at listened
      cases registered : raw.register receive listener before with
      | mk table outcome =>
        cases outcome with
        | error failure stopped => simp [registered] at listened
        | ok _ last =>
          simp only [registered] at listened
          cases listened
          exact .inr ⟨raw, table, last, rfl, registered, rfl⟩

theorem operate_listen_ok [VecGrowth] {fuel : Nat} {place : Place} {listener : Listener} {before after : World V}
    (listened : World.operate place (Notifier.listen (World.receive fuel) listener) before = .ok () after) :
    OnlyTables before after ∧
      (listener.alive before = true →
        before.notifierAt place = some .closed ∨ after.Stores place listener) ∧
      (∀ other, other ≠ place → after.listenersAt other = before.listenersAt other) ∧
      ∀ old, before.listenersAt place = some old →
        ∃ new, after.listenersAt place = some new ∧ new.Subperm (old ++ [listener]) := by
  obtain ⟨found, rfl⟩ | ⟨raw, table, last, found, registered, rfl⟩ := operate_registered listened
  · refine ⟨.of_notifiers (setNotifier_found found) ?_ ?_ ?_ ?_ ?_ ?_, fun _ => .inl found, fun other _ => ?_,
      fun old listed => ?_⟩
    case refine_7 => simp only [World.listenersAt, setNotifier_found found]
    case refine_8 => simp [World.listenersAt, found] at listed
    all_goals simp
  · obtain ⟨silent, registers⟩ := register_registers (receive_asks before) (.refl before) registered
    have present : last.listenersAt place = some (raw.listeners.map (·.listener)) := by
      rw [silent.steady.listeners, World.listenersAt, found]
    obtain ⟨stored, present, _⟩ := listenersAt_some present
    have written := setNotifier_self (.opened table) present
    refine ⟨registers_onlyTables registers silent found written, fun living => ?_, fun other different => ?_,
      fun old listed => ⟨table.listeners.map (·.listener), by simp only [World.listenersAt, written], ?_⟩⟩
    · exact .inr ⟨table, written, registers.added living⟩
    · rw [World.listenersAt, setNotifier_other last place _ different, ← World.listenersAt, silent.steady.listeners]
    · have names : raw.listeners.map (·.listener) = old := by
        simpa [World.listenersAt, found] using listed
      rw [← names]
      exact registers.listeners

private theorem OnlyTables.refl (world : World V) : OnlyTables world world := ⟨.refl world, fun _ => rfl, rfl, rfl⟩

/-- A living listener is held afterwards, since only cells close their notifiers. -/
theorem listen_ok [VecGrowth] {fuel : Nat} {listener : Listener} {source : Source V} {before after : World V}
    (opened : ∀ id, before.notifierAt (.flatten id) ≠ some .closed) (listened : source.listen fuel listener before = .ok () after) :
    OnlyTables before after ∧ (listener.alive before = true → after.Holds listener source) := by
  induction source with
  | cell id =>
    obtain ⟨tables, new, _⟩ := operate_listen_ok listened
    refine ⟨tables, fun living => ?_⟩
    rcases new living with closed | stored
    · exact .inl ((tables.keeps.closed _).mpr (by simp only [World.listenersAt, closed]))
    · exact .inr stored
  | constant value =>
    cases listened
    exact ⟨.refl _, fun _ => trivial⟩
  | map function source ih => exact ih listened
  | flatten id =>
    obtain ⟨tables, new, _⟩ := operate_listen_ok listened
    refine ⟨tables, fun living => ?_⟩
    rcases new living with closed | stored
    · exact absurd closed (opened id)
    · exact stored

structure Valid (world : World V) : Prop where
  opened : ∀ id, world.notifierAt (.flatten id) ≠ some .closed
  outer : ∀ id sourceOfSource state, world.core id = some (sourceOfSource, state) →
    world.Holds (.outer id) sourceOfSource
  cached : ∀ id sourceOfSource state, world.core id = some (sourceOfSource, some state) →
    state.generation = 0 ∧ world.gates state.gate = true ∧ state.gate < world.nextGate ∧
      world.Holds (.inner id state.gate) state.source
  distinct : ∀ id other sourceOfSource another state old, world.core id = some (sourceOfSource, some state) →
    world.core other = some (another, some old) → state.gate = old.gate → id = other

theorem opened_kept {before after : World V}
    (listed : ∀ id, after.listenersAt (.flatten id) = none → before.listenersAt (.flatten id) = none)
    (missing : ∀ id, before.core id = none → after.core id = none)
    (opened : ∀ id, before.notifierAt (.flatten id) ≠ some .closed) (id : Nat) :
    after.notifierAt (.flatten id) ≠ some .closed := by
  intro closed
  have unlisted := listed id (by simp only [World.listenersAt, closed])
  cases found : before.notifierAt (.flatten id) with
  | none =>
    have gone := missing id (by simpa [World.core, World.notifierAt] using found)
    simp only [World.core, Option.map_eq_none_iff] at gone
    simp [World.notifierAt, gone] at closed
  | some notifier =>
    cases notifier with
    | opened raw => simp [World.listenersAt, found] at unlisted
    | closed => exact opened id found

theorem OnlyTables.valid {before after : World V} (tables : OnlyTables before after) (valid : Valid before) :
    Valid after where
  opened := opened_kept (fun id => (tables.keeps.closed _).mp) (fun id => (tables.core id).trans) valid.opened
  outer id sourceOfSource state found :=
    (valid.outer id _ _ ((tables.core id).symm.trans found)).keeps tables.keeps trivial rfl
  cached id sourceOfSource state found := by
    obtain ⟨generation, isOpen, known, holds⟩ := valid.cached id _ _ ((tables.core id).symm.trans found)
    have still : after.gates state.gate = true := by rw [tables.gates, isOpen]
    exact ⟨generation, still, tables.nextGate ▸ known, holds.keeps tables.keeps known still⟩
  distinct id other sourceOfSource another state old one two :=
    valid.distinct id other _ _ _ _ ((tables.core id).symm.trans one) ((tables.core other).symm.trans two)

theorem Steady.valid {before after : World V} (steady : Steady before after) (valid : Valid before) :
    Valid after where
  opened := opened_kept (fun id => (steady.listeners _).symm.trans) (fun id => (steady.core id).trans) valid.opened
  outer id sourceOfSource state found :=
    (valid.outer id _ _ ((steady.core id).symm.trans found)).steady steady rfl
  cached id sourceOfSource state found := by
    obtain ⟨generation, isOpen, known, holds⟩ := valid.cached id _ _ ((steady.core id).symm.trans found)
    exact ⟨generation, steady.gates ▸ isOpen, steady.nextGate ▸ known, holds.steady steady isOpen⟩
  distinct id other sourceOfSource another state old one two :=
    valid.distinct id other _ _ _ _ ((steady.core id).symm.trans one) ((steady.core other).symm.trans two)

end Nosy.Sources
