import Nosy.FlattenedCell
import Nosy.Proofs.FlattenedTables

/-! Operations on one flattened source over a cell of cell sources, as whole calls
and as the steps of `Flatten::get`. None of them fails. -/

namespace Nosy.Sources.FlattenedCell
open RawNotifier
open EStateM (Result)

variable {T : Type}

theorem asSource_cell {value : Value T} {source : Source (Value T)} (found : asSource value = some source) :
    ∃ inner, value = .source inner ∧ source = .cell (inner + 1) := by
  cases value with
  | source inner =>
    cases found
    exact ⟨inner, rfl, rfl⟩
  | plain value => cases found

structure Built (world : World (Value T)) : Prop where
  valid : Valid world
  flat : Flat world
  outer : (world.core 0).map Prod.fst = some (.cell 0)
  source : ∃ inner, (world.cells 0).value = .source inner

section Operations
variable {fuel : Nat} {world after : World (Value T)}

theorem Built.core (built : Built world) : ∃ state, world.core 0 = some (.cell 0, state) := by
  obtain ⟨⟨_, state⟩, found, same⟩ := Option.map_eq_some_iff.mp built.outer
  cases same
  exact ⟨state, found⟩

/-- The outer cell has the listener that counts its changes. -/
theorem Built.listens (built : Built world) : world.Stores (.cell 0) (.outer 0) := by
  obtain ⟨state, found⟩ := built.core
  obtain ⟨listeners, listed, _⟩ := built.flat.cells 0
  rcases built.valid.outer 0 _ _ found with closed | stored
  · rw [listed] at closed
    cases closed
  · exact stored

theorem Built.denotes_iff (built : Built world) {inner : Nat} (holds : (world.cells 0).value = .source inner)
    {value : Value T} : Denotes asSource world flattened value ↔ value = (world.cells (inner + 1)).value := by
  have outer : (world.flattens 0).map (·.sourceOfSource) = some (.cell 0) := by
    simpa [World.core, Function.comp_def] using built.outer
  refine ⟨fun denotes => ?_, ?_⟩
  · cases denotes with
    | flatten found first isSource second =>
      rw [outer] at found
      cases found
      cases first
      rw [holds] at isSource
      cases isSource
      cases second
      rfl
  · rintro rfl
    have first : Denotes asSource world (.cell 0) (.source inner) := holds ▸ .cell 0
    exact .flatten outer first rfl (.cell _)

private theorem Built.steady (built : Built world) (steady : Steady world after) : Built after where
  valid := steady.valid built.valid
  flat := built.flat.same steady.listeners
  outer := by rw [steady.core, built.outer]
  source := by simpa only [steady.values] using built.source

theorem Built.replace (built : Built world) (change : Change T) : Built (world.replace change.cell change.value) where
  valid := replace_valid built.valid _ _
  flat := built.flat.same fun place => by simp only [World.listenersAt, replace_notifierAt]
  outer := built.outer
  source := by
    cases change with
    | outer inner => exact ⟨inner, by simp [World.replace, Change.cell, Change.value]⟩
    | inner id value => simpa [World.replace, Change.cell] using built.source

theorem Built.notify (built : Built world) (fuel id : Nat) : ∃ after, World.notify (fuel + 1) (.cell id) world = .ok () after ∧
    Built after ∧ after.generation 0 = (world.generation 0).map (· + if id = 0 then 1 else 0) := by
  obtain ⟨after, notified, _, generation⟩ := notify_returns fuel built.flat id
  exact ⟨after, notified, built.steady (notify_ok notified).1.steady, generation⟩

theorem store_notifierAt (world : World (Value T)) (id : Nat) (needed : UInt32) (new : State (Value T)) (place : Place) :
    (world.store id needed new).2.notifierAt place = world.notifierAt place := by
  unfold World.store
  split
  · exact setState_notifierAt world id new place
  · split
    · cases place <;> rfl
    · refine Eq.trans ?_ (setState_notifierAt world id new place)
      cases place <;> rfl

/-- Storing over a state that was not enough puts the new one in its place. -/
theorem store_stale {needed : UInt32} {new : State (Value T)} {outer : Source (Value T)} {state : Option (State (Value T))}
    (found : world.core 0 = some (outer, state)) (stale : ∀ old, state = some old → ¬ old.generation ≥ needed) :
    (world.store 0 needed new).1 = new.source ∧ (world.store 0 needed new).2.core 0 = some (outer, some new) ∧
      (world.store 0 needed new).2.generation 0 = world.generation 0 := by
  have stored : (world.setInner 0 ({ · with state := some new })).core 0 = some (outer, some new) := by
    rw [setState_core, if_pos rfl, found]
    rfl
  have same := setState_generation world 0 new 0
  simp only [World.store, core_state found]
  cases state with
  | none => exact ⟨rfl, stored, same⟩
  | some old =>
    simp only [if_neg (stale old rfl)]
    exact ⟨trivial, stored, same⟩

/-- Storing opens no gate, and drops that of the state it replaces. -/
theorem store_gates {needed : UInt32} {new : State (Value T)} {outer : Source (Value T)} {state : Option (State (Value T))}
    (found : world.core 0 = some (outer, state)) (stale : ∀ old, state = some old → ¬ old.generation ≥ needed) {gate : Nat}
    (isOpen : (world.store 0 needed new).2.gates gate = true) :
    world.gates gate = true ∧ ∀ old, state = some old → gate ≠ old.gate := by
  simp only [World.store, core_state found] at isOpen
  cases state with
  | none =>
    refine ⟨isOpen, ?_⟩
    intro old absent
    cases absent
  | some old =>
    simp only [if_neg (stale old rfl), World.closeGate] at isOpen
    by_cases equal : gate = old.gate
    · simp [equal] at isOpen
    · rw [Function.update_of_ne equal] at isOpen
      refine ⟨isOpen, ?_⟩
      rintro _ ⟨⟩
      exact equal

theorem store_nextGate (world : World (Value T)) (id : Nat) (needed : UInt32) (new : State (Value T)) :
    (world.store id needed new).2.nextGate = world.nextGate := by
  unfold World.store
  split
  · rfl
  · split <;> rfl

theorem Built.store (built : Built world) {needed : UInt32} {new : State (Value T)} (candidate : Candidate world 0 new) :
    Built (world.store 0 needed new).2 := by
  obtain ⟨state, found⟩ := built.core
  have keeps := store_keeps world 0 needed new
  refine ⟨store_valid built.valid found candidate, built.flat.same fun place => ?_, ?_, ?_⟩
  · simp only [World.listenersAt, store_notifierAt]
  · rw [keeps.outers, built.outer]
  · simpa only [keeps.values] using built.source

theorem Built.die (built : Built world) (user : Nat) : Built (die user world) where
  valid := die_valid built.valid user
  flat := built.flat.same fun place => by cases place <;> rfl
  outer := built.outer
  source := built.source

private theorem Built.openGate (built : Built world) : Built world.openGate where
  valid := (@openGate_got _ asSource _ built.valid).valid
  flat := built.flat.same fun place => by cases place <;> rfl
  outer := built.outer
  source := built.source

variable [VecGrowth]

private theorem listened (built : Built world) {place : Place} {listener : Listener}
    (registered : World.operate place (Notifier.listen (World.receive fuel) listener) world = .ok () after)
    (known : listener.Feeds) (distinct : listener ≠ .outer 0)
    (own : place = .flatten 0 → ∃ user, listener = .user user) : Built after := by
  obtain ⟨tables, _⟩ := operate_listen_ok registered
  have listens : after.Stores (.cell 0) (.outer 0) := tables.keeps.stores _ _ trivial rfl built.listens
  refine ⟨tables.valid built.valid, built.flat.listened registered known distinct own listens, ?_, ?_⟩
  · rw [tables.core, built.outer]
  · simpa only [tables.keeps.values] using built.source

theorem Built.listenUser (built : Built world) (fuel user : Nat) :
    ∃ after, flattened.listen (fuel + 1) (.user user) world = .ok () after ∧ Built after := by
  obtain ⟨listeners, listed, users⟩ := built.flat.own
  have feeds : ∀ other ∈ listeners, other.Feeds := fun other member => by
    obtain ⟨user, rfl⟩ := users other member
    trivial
  obtain ⟨after, registered⟩ := operate_listen_returns fuel built.flat listed feeds (.user user) trivial
  exact ⟨after, registered, listened built registered trivial nofun fun _ => ⟨user, rfl⟩⟩

theorem Built.listenInner (built : Built world) (fuel inner : Nat) :
    ∃ after, (Source.cell (inner + 1)).listen (fuel + 1) (.inner 0 world.nextGate) world.openGate = .ok () after ∧
      Built after ∧ OnlyTables world.openGate after ∧ Candidate after 0 ⟨0, .cell (inner + 1), world.nextGate⟩ := by
  obtain ⟨listeners, listed, feeds, _⟩ := built.openGate.flat.cells (inner + 1)
  obtain ⟨after, registered⟩ :=
    operate_listen_returns fuel built.openGate.flat listed feeds (.inner 0 world.nextGate) rfl
  have subscribed : (Source.cell (inner + 1)).listen (fuel + 1) (.inner 0 world.nextGate) world.openGate =
      .ok () after := registered
  obtain ⟨tables, held⟩ := listen_ok built.openGate.valid.opened subscribed
  have attached := held (by simp [Listener.alive, World.openGate])
  refine ⟨after, subscribed, listened built.openGate registered rfl (by simp) (by simp), tables, rfl, ?_, ?_,
    fun other outer state cached equal => ?_, attached⟩
  · simp [tables.gates, World.openGate]
  · rw [tables.nextGate]
    exact Nat.lt_succ_self _
  · rw [tables.core] at cached
    have known := (built.valid.cached other _ _ cached).2.2.1
    simp only at equal
    omega

/-- Only the outer cell has a listener at first. -/
theorem create_tables (fuel inner : Nat) (data : Nat → T) (alive : Nat → Bool) :
    ∃ world, create (fuel + 1) inner data alive = some world ∧ world.core 0 = some (.cell 0, none) ∧
      world.generation 0 = some 0 ∧ (∀ gate, world.gates gate = false) ∧ world.nextGate = 0 ∧
      world.listenersAt (.flatten 0) = some [] ∧
      (∀ id, world.listenersAt (.cell id) = some (if id = 0 then [.outer 0] else [])) ∧
      ∀ id, (world.cells id).value = values inner data id := by
  refine ⟨_, rfl, rfl, rfl, fun _ => rfl, rfl, rfl, fun id => ?_, fun id => ?_⟩
  all_goals cases id <;> rfl

theorem create_returns (inner : Nat) (data : Nat → T) (alive : Nat → Bool) :
    ∃ world, create (fuel + 1) inner data alive = some world ∧ Built world ∧ world.core 0 = some (.cell 0, none) ∧
      world.generation 0 = some 0 ∧ ∀ id, (world.cells id).value = values inner data id := by
  obtain ⟨world, created, core, generation, _, _, own, cells, held⟩ := create_tables fuel inner data alive
  obtain ⟨_, new⟩ := finished_ok created
  have flat : Flat world := by
    refine ⟨fun id => ⟨_, cells id, ?_⟩, [], own, nofun⟩
    by_cases first : id = 0 <;> simp [first, Listener.Feeds]
  have valid := newFlatten_valid (initial_valid (values inner data) alive) rfl new
  exact ⟨world, created, ⟨valid, flat, by rw [core]; rfl, inner, held 0⟩, core, generation, held⟩

end Operations
end Nosy.Sources.FlattenedCell
