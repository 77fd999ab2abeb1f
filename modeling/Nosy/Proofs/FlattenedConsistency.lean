import Nosy.FlattenedThreads
import Nosy.Proofs.FlattenedCell

/-! What every interleaving keeps. A source that was fetched from the outer cell is
still the current one until the outer cell notifies, and a state that is about to
be stored is already subscribed through a gate of its own. -/

namespace Nosy.Sources.FlattenedThreads
open FlattenedCell RawNotifier Transition
open EStateM (Result)

variable {T : Type}

structure Undisturbed {V : Type} (before after : World V) : Prop where
  core : ∀ id, after.core id = before.core id
  candidates : ∀ id new, Candidate before id new → Candidate after id new

section Worlds
variable {V : Type} {before middle after : World V}

theorem Undisturbed.refl (world : World V) : Undisturbed world world := ⟨fun _ => rfl, fun _ _ candidate => candidate⟩

private theorem Undisturbed.trans (first : Undisturbed before middle) (second : Undisturbed middle after) :
    Undisturbed before after :=
  ⟨fun id => (second.core id).trans (first.core id),
    fun id new candidate => second.candidates id new (first.candidates id new candidate)⟩

private theorem Undisturbed.intro (core : ∀ id, after.core id = before.core id)
    (gates : ∀ gate, gate < before.nextGate → after.gates gate = before.gates gate)
    (nextGate : before.nextGate ≤ after.nextGate)
    (holds : ∀ id gate source, gate < before.nextGate → before.gates gate = true →
      before.Holds (.inner id gate) source → after.Holds (.inner id gate) source) : Undisturbed before after := by
  refine ⟨core, fun id new candidate => ⟨candidate.generation, ?_, ?_, fun other outer state cached => ?_, ?_⟩⟩
  · rw [gates _ candidate.known]
    exact candidate.isOpen
  · exact Nat.lt_of_lt_of_le candidate.known nextGate
  · rw [core] at cached
    exact candidate.own other outer state cached
  · exact holds _ _ _ candidate.known candidate.isOpen candidate.holds

theorem replace_undisturbed (world : World V) (id : Nat) (value : V) : Undisturbed world (world.replace id value) :=
  .intro (fun _ => rfl) (fun _ _ => rfl) (Nat.le_refl _) fun _ _ _ _ _ holds =>
    holds.notifiers (replace_notifierAt world id value)

private theorem steady_undisturbed (steady : Steady before after) : Undisturbed before after :=
  .intro steady.core (fun gate _ => by rw [steady.gates]) (Nat.le_of_eq steady.nextGate.symm)
    fun _ _ _ _ isOpen holds => holds.steady steady isOpen

private theorem tables_undisturbed (tables : OnlyTables before after) : Undisturbed before after := by
  refine .intro tables.core (fun gate _ => by rw [tables.gates]) (Nat.le_of_eq tables.nextGate.symm)
    fun _ _ _ known isOpen holds => holds.keeps tables.keeps known ?_
  rw [Listener.alive, tables.gates]
  exact isOpen

private theorem die_undisturbed (world : World V) (user : Nat) : Undisturbed world (die user world) :=
  .intro (fun _ => rfl) (fun _ _ => rfl) (Nat.le_refl _) fun _ _ _ _ _ holds => die_holds user holds

private theorem openGate_undisturbed (world : World V) : Undisturbed world world.openGate := by
  refine .intro (fun _ => rfl) (fun gate known => ?_) (Nat.le_succ _) fun _ _ _ _ _ holds => holds.notifiers fun _ => rfl
  simp [World.openGate, Function.update_of_ne (Nat.ne_of_lt known)]

private theorem setState_candidate {world : World V} {id : Nat} {new other : State V}
    (candidate : Candidate world id other)
    (different : other.gate ≠ new.gate) : Candidate (world.setInner id ({ · with state := some new })) id other := by
  refine ⟨candidate.generation, candidate.isOpen, candidate.known, fun next outer state cached => ?_,
    candidate.holds.notifiers (setState_notifierAt world id new)⟩
  rw [setState_core] at cached
  split at cached
  · obtain ⟨_, _, same⟩ := Option.map_eq_some_iff.mp cached
    cases same
    exact different.symm
  · exact candidate.own next outer state cached

private theorem closeGate_candidate {world : World V} {id gate : Nat} {other : State V}
    (candidate : Candidate world id other)
    (different : other.gate ≠ gate) : Candidate (world.closeGate gate) id other := by
  refine ⟨candidate.generation, ?_, candidate.known, candidate.own, candidate.holds.notifiers fun _ => rfl⟩
  simpa [World.closeGate, Function.update_of_ne different] using candidate.isOpen

/-- Storing a state disturbs nobody who is about to store another. -/
private theorem store_candidate {world : World V} {id : Nat} {needed : UInt32} {new other : State V}
    (candidate : Candidate world id other) (different : other.gate ≠ new.gate) :
    Candidate (world.store id needed new).2 id other := by
  unfold World.store
  split
  · exact setState_candidate candidate different
  next old present =>
    split
    · exact closeGate_candidate candidate different
    · obtain ⟨shared, found, state⟩ := Option.bind_eq_some_iff.mp present
      have cached : world.core id = some (shared.sourceOfSource, some old) := by simp [World.core, found, state]
      exact closeGate_candidate (setState_candidate candidate different) (candidate.own id _ old cached).symm

end Worlds

/-- No change of the outer cell waits for its notification. -/
def Calm (pending : Nat → Option Nat) : Prop := ∀ setter, pending setter ≠ some 0

/-- The source was read from the outer cell by a call that had seen this much. -/
def FromOuter (system : System T) (seen : Nat) (source : Source (Value T)) : Prop :=
  (∃ inner, source = .cell (inner + 1)) ∧
    (seen = system.notified → Calm system.pending → asSource (system.world.cells 0).value = some source)

def Phase.Valid (system : System T) : Phase T → Prop
  | .idle | .done _ => True
  | .compare _ seen | .fetch _ seen => seen ≤ system.notified
  | .listen _ seen source => seen ≤ system.notified ∧ FromOuter system seen source
  | .store _ seen new =>
    seen ≤ system.notified ∧ FromOuter system seen new.source ∧ Candidate system.world 0 new
  | .read source => ∃ inner, source = .cell (inner + 1)

/-- The gate that a call has opened and not stored yet. -/
def Phase.gate : Phase T → Option Nat
  | .store _ _ new => some new.gate
  | _ => none

structure Consistent (system : System T) : Prop where
  built : Built system.world
  recent : system.cachedSeen ≤ system.notified
  cached : ∀ outer state, system.world.core 0 = some (outer, some state) → FromOuter system system.cachedSeen state.source
  calls : ∀ call, (system.calls call).Valid system
  gates : ∀ call other gate, (system.calls call).gate = some gate → (system.calls other).gate = some gate → call = other

/-- Whoever fetched the current source before has the current source after, unless
the outer cell has notified or will. -/
structure Evolves (before after : System T) : Prop where
  notified : before.notified ≤ after.notified
  outer : after.notified = before.notified → Calm after.pending →
    Calm before.pending ∧ (after.world.cells 0).value = (before.world.cells 0).value

private theorem FromOuter.evolve {before after : System T} {seen : Nat} {source : Source (Value T)}
    (fromOuter : FromOuter before seen source) (evolves : Evolves before after) (known : seen ≤ before.notified) :
    FromOuter after seen source := by
  refine ⟨fromOuter.1, fun current calm => ?_⟩
  have more := evolves.notified
  obtain ⟨before, same⟩ := evolves.outer (by omega) calm
  rw [same]
  exact fromOuter.2 (by omega) before

private theorem Phase.Valid.evolve {before after : System T} {phase : Phase T} (valid : phase.Valid before)
    (evolves : Evolves before after)
    (candidates : ∀ new, phase.gate = some new.gate → Candidate before.world 0 new → Candidate after.world 0 new) :
    phase.Valid after := by
  have more := evolves.notified
  cases phase with
  | idle | done => trivial
  | compare needed seen | fetch needed seen => exact Nat.le_trans valid more
  | listen needed seen source => exact ⟨Nat.le_trans valid.1 more, valid.2.evolve evolves valid.1⟩
  | store needed seen new =>
    obtain ⟨known, fromOuter, candidate⟩ := valid
    exact ⟨Nat.le_trans known more, fromOuter.evolve evolves known, candidates new rfl candidate⟩
  | read source => exact valid

/-- A change under the eyes of all calls. -/
private theorem Consistent.change {before after : System T} (consistent : Consistent before) (built : Built after.world)
    (recent : after.cachedSeen ≤ after.notified)
    (cached : ∀ outer state, after.world.core 0 = some (outer, some state) → FromOuter after after.cachedSeen state.source)
    (evolves : Evolves before after) (calls : after.calls = before.calls)
    (candidates : ∀ call new, (before.calls call).gate = some new.gate → Candidate before.world 0 new →
      Candidate after.world 0 new) : Consistent after where
  built := built
  recent := recent
  cached := cached
  calls call := by
    rw [calls]
    exact (consistent.calls call).evolve evolves (candidates call)
  gates := by
    rw [calls]
    exact consistent.gates

private theorem Consistent.undisturbed {before after : System T} (consistent : Consistent before)
    (built : Built after.world)
    (undisturbed : Undisturbed before.world after.world) (evolves : Evolves before after)
    (calls : after.calls = before.calls) (cachedSeen : after.cachedSeen = before.cachedSeen) : Consistent after := by
  refine consistent.change built ?_ (fun outer state found => ?_) evolves calls fun _ new _ => undisturbed.candidates 0 new
  · rw [cachedSeen]
    exact Nat.le_trans consistent.recent evolves.notified
  · rw [undisturbed.core] at found
    rw [cachedSeen]
    exact (consistent.cached outer state found).evolve evolves consistent.recent

private theorem Consistent.setCall {system : System T} (consistent : Consistent system) {call : Nat} {phase : Phase T}
    (valid : phase.Valid system)
    (own : ∀ gate, phase.gate = some gate → ∀ other, other ≠ call → (system.calls other).gate ≠ some gate) :
    Consistent (system.setCall call phase) := by
  have evolves : Evolves system (system.setCall call phase) := ⟨Nat.le_refl _, fun _ calm => ⟨calm, rfl⟩⟩
  refine ⟨consistent.built, consistent.recent, consistent.cached, fun other => ?_, fun one two gate first second => ?_⟩
  · by_cases equal : other = call
    · subst other
      simp only [System.setCall, Function.update_self]
      exact valid.evolve evolves fun _ _ candidate => candidate
    · simp only [System.setCall, Function.update_of_ne equal]
      exact (consistent.calls other).evolve evolves fun _ _ candidate => candidate
  · by_cases here : one = call
    · by_cases there : two = call
      · rw [here, there]
      · simp only [System.setCall, here, Function.update_self, Function.update_of_ne there] at first second
        exact absurd second (own gate first two there)
    · by_cases there : two = call
      · simp only [System.setCall, there, Function.update_self, Function.update_of_ne here] at first second
        exact absurd first (own gate second one here)
      · simp only [System.setCall, Function.update_of_ne here, Function.update_of_ne there] at first second
        exact consistent.gates one two gate first second

/-- The second look: somebody else's state is used, or the new one stored. -/
theorem store_outcome {system : System T} (built : Built system.world) (needed : UInt32) (new : State (Value T)) :
    yields system.world needed = true ∧ (∃ outer old, system.world.core 0 = some (outer, some old) ∧
        (system.world.store 0 needed new).1 = old.source ∧
        (system.world.store 0 needed new).2.core 0 = system.world.core 0) ∨
      yields system.world needed = false ∧ (system.world.store 0 needed new).1 = new.source ∧
        (system.world.store 0 needed new).2.core 0 = some (.cell 0, some new) := by
  obtain ⟨cached, found⟩ := built.core
  cases cached with
  | none =>
    obtain ⟨chosen, stored, _⟩ := @store_stale _ _ needed new _ _ found nofun
    exact .inr ⟨by simp [yields, core_state found], chosen, stored⟩
  | some old =>
    by_cases enough : old.generation ≥ needed
    · refine .inl ⟨by simpa [yields, core_state found] using enough, .cell 0, old, found, ?_⟩
      simp only [World.store, core_state found, if_pos enough]
      exact ⟨trivial, rfl⟩
    · obtain ⟨chosen, stored, _⟩ := @store_stale _ _ needed new _ _ found (by rintro _ ⟨⟩; exact enough)
      exact .inr ⟨by simpa [yields, core_state found] using enough, chosen, stored⟩

section Steps
variable [VecGrowth] {fuel call : Nat} {system : System T} {needed : UInt32} {seen : Nat}

theorem load_step (built : Built system.world) (idle : system.calls call = .idle) :
    ∃ needed, step fuel (.get call) system = some (system.setCall call (.compare needed system.notified)) := by
  obtain ⟨shared, present, _⟩ := Option.map_eq_some_iff.mp built.core.choose_spec
  exact ⟨shared.generationFromListening, by simp only [step, idle, advance, present, Option.map_some]⟩

theorem compare_step (built : Built system.world) (looking : system.calls call = .compare needed seen) :
    accepts system.world needed = false ∧
        step fuel (.get call) system = some (system.setCall call (.fetch needed seen)) ∨
      ∃ outer state, system.world.core 0 = some (outer, some state) ∧ accepts system.world needed = true ∧
        step fuel (.get call) system = some (system.setCall call (.read state.source)) := by
  obtain ⟨cached, found⟩ := built.core
  obtain ⟨shared, present, same⟩ := Option.map_eq_some_iff.mp found
  cases current : shared.current needed with
  | none =>
    refine .inl ⟨by simp [accepts, present, current], ?_⟩
    simp only [step, looking, advance, present, Option.map_some, current]
  | some source =>
    obtain ⟨state, stored, rfl⟩ : ∃ state, shared.state = some state ∧ state.source = source := by
      unfold Inner.current at current
      split at current
      next state stored =>
        split at current
        · exact ⟨state, stored, Option.some.inj current⟩
        · cases current
      · cases current
    refine .inr ⟨shared.sourceOfSource, state, by simp [World.core, present, stored], by simp [accepts, present, current], ?_⟩
    simp only [step, looking, advance, present, Option.map_some, current]

theorem fetch_step (built : Built system.world) (fetching : system.calls call = .fetch needed seen) :
    ∃ inner, (system.world.cells 0).value = .source inner ∧
      step fuel (.get call) system = some (system.setCall call (.listen needed seen (.cell (inner + 1)))) := by
  obtain ⟨inner, holds⟩ := built.source
  obtain ⟨cached, found⟩ := built.core
  obtain ⟨⟨outer, _, _, _⟩, present, same⟩ := Option.map_eq_some_iff.mp found
  cases same
  refine ⟨inner, holds, ?_⟩
  simp only [step, fetching, advance, present, Option.bind_some, Source.get, Source.getWith, holds, asSource,
    Option.map_some]

theorem listen_step {inner : Nat} (built : Built system.world)
    (fuel : Nat) (listening : system.calls call = .listen needed seen (.cell (inner + 1))) :
    ∃ after, step (fuel + 1) (.get call) system = some ({ system with world := after }.setCall call
        (.store needed seen ⟨0, .cell (inner + 1), system.world.nextGate⟩)) ∧
      Built after ∧ OnlyTables system.world.openGate after ∧
      Candidate after 0 ⟨0, .cell (inner + 1), system.world.nextGate⟩ := by
  obtain ⟨after, subscribed, kept, tables, candidate⟩ := built.listenInner fuel inner
  exact ⟨after, by simp only [step, listening, advance, subscribed], kept, tables, candidate⟩

theorem store_step {new : State (Value T)} (storing : system.calls call = .store needed seen new) :
    step fuel (.get call) system = some ({ system with
      world := (system.world.store 0 needed new).2
      cachedSeen := if yields system.world needed then system.cachedSeen else seen }.setCall call
        (.read (system.world.store 0 needed new).1)) := by
  simp only [step, storing, advance]

theorem read_step {id : Nat} (reading : system.calls call = .read (.cell id)) :
    step fuel (.get call) system = some (system.setCall call (.done (system.world.cells id).value)) := by
  simp only [step, reading, advance, Source.get, Source.getWith]

end Steps

private theorem none_opened {system : System T} {call : Nat} {phase : Phase T} (none : phase.gate = none) :
    ∀ gate, phase.gate = some gate → ∀ other, other ≠ call → (system.calls other).gate ≠ some gate := by
  intro gate opened
  rw [none] at opened
  cases opened

private theorem Consistent.gate_known {system : System T} (consistent : Consistent system) {call gate : Nat}
    (opened : (system.calls call).gate = some gate) : gate < system.world.nextGate := by
  have valid := consistent.calls call
  cases phase : system.calls call with
  | store needed seen new =>
    rw [phase] at valid opened
    cases opened
    exact valid.2.2.known
  | _ =>
    rw [phase] at opened
    cases opened

private theorem store_consistent {system : System T} {call seen : Nat} {needed : UInt32} {new : State (Value T)}
    (consistent : Consistent system)
    (storing : system.calls call = .store needed seen new) : Consistent ({ system with
      world := (system.world.store 0 needed new).2
      cachedSeen := if yields system.world needed then system.cachedSeen else seen }.setCall call
        (.read (system.world.store 0 needed new).1)) := by
  obtain ⟨known, fromOuter, candidate⟩ : Phase.Valid system (.store needed seen new) := storing ▸ consistent.calls call
  have same := (store_keeps system.world 0 needed new).values 0
  have outcome := store_outcome consistent.built needed new
  have cell : ∃ inner, (system.world.store 0 needed new).1 = .cell (inner + 1) := by
    rcases outcome with ⟨_, outer, old, found, chosen, _⟩ | ⟨_, chosen, _⟩
    · rw [chosen]
      exact (consistent.cached outer old found).1
    · rw [chosen]
      exact fromOuter.1
  -- the call has given its gate away before the world changes
  have moved : Consistent (system.setCall call (.read (system.world.store 0 needed new).1)) :=
    consistent.setCall cell (none_opened rfl)
  refine moved.change (consistent.built.store candidate) ?_ (fun outer state found => ?_) ⟨Nat.le_refl _, fun _ calm => ?_⟩ rfl
    fun other new' opened candidate' => ?_
  · split
    · exact consistent.recent
    · exact known
  · have found : (system.world.store 0 needed new).2.core 0 = some (outer, some state) := found
    show FromOuter _ (if yields system.world needed then system.cachedSeen else seen) state.source
    rcases outcome with ⟨theirs, _, old, _, _, kept⟩ | ⟨ours, _, stored⟩
    · rw [kept] at found
      rw [if_pos theirs]
      exact (consistent.cached outer state found).evolve ⟨Nat.le_refl _, fun _ calm => ⟨calm, same⟩⟩ consistent.recent
    · rw [stored] at found
      cases found
      rw [ours]
      exact fromOuter.evolve ⟨Nat.le_refl _, fun _ calm => ⟨calm, same⟩⟩ known
  · exact ⟨calm, same⟩
  · by_cases equal : other = call
    · simp [System.setCall, equal, Phase.gate] at opened
    · simp only [System.setCall, Function.update_of_ne equal] at opened
      refine store_candidate candidate' fun shared => equal ?_
      exact consistent.gates other call new.gate (opened.trans (congrArg some shared)) (by rw [storing]; rfl)

theorem replace_consistent {system : System T} (consistent : Consistent system) {setter : Nat} (free : system.pending setter = none)
    (change : Change T) : Consistent { system with
      world := system.world.replace change.cell change.value
      pending := Function.update system.pending setter (some change.cell) } := by
  refine consistent.undisturbed (consistent.built.replace change) (replace_undisturbed ..) ⟨Nat.le_refl _, fun _ calm => ?_⟩
    rfl rfl
  have inner : change.cell ≠ 0 := fun outer => calm setter (by simp [outer])
  refine ⟨fun other waiting => ?_, by simp [World.replace, Function.update_of_ne inner.symm]⟩
  by_cases equal : other = setter
  · rw [equal, free] at waiting
    cases waiting
  · exact calm other (by simpa [Function.update_of_ne equal] using waiting)

theorem die_consistent {system : System T} (consistent : Consistent system) (user : Nat) :
    Consistent { system with world := die user system.world } :=
  consistent.undisturbed (consistent.built.die user) (die_undisturbed ..) ⟨Nat.le_refl _, fun _ calm => ⟨calm, rfl⟩⟩ rfl rfl

section Kept
variable [VecGrowth] {fuel call : Nat} {system : System T}

/-- A call of `get` can always take its next step. -/
theorem get_consistent (fuel : Nat) (consistent : Consistent system) (unfinished : ∀ value, system.calls call ≠ .done value) :
    ∃ next, step (fuel + 1) (.get call) system = some next ∧ Consistent next := by
  have valid := consistent.calls call
  cases phase : system.calls call with
  | idle =>
    obtain ⟨needed, stepped⟩ := load_step consistent.built phase
    exact ⟨_, stepped, consistent.setCall (Nat.le_refl _) (none_opened rfl)⟩
  | compare needed seen =>
    rw [phase] at valid
    rcases compare_step consistent.built phase with ⟨_, stepped⟩ | ⟨outer, state, found, _, stepped⟩
    · exact ⟨_, stepped, consistent.setCall valid (none_opened rfl)⟩
    · exact ⟨_, stepped, consistent.setCall (consistent.cached outer state found).1 (none_opened rfl)⟩
  | fetch needed seen =>
    rw [phase] at valid
    obtain ⟨inner, holds, stepped⟩ := fetch_step consistent.built phase
    refine ⟨_, stepped, consistent.setCall ⟨valid, ⟨inner, rfl⟩, fun _ _ => ?_⟩ (none_opened rfl)⟩
    rw [holds]
    rfl
  | listen needed seen source =>
    rw [phase] at valid
    obtain ⟨known, ⟨inner, rfl⟩, fromOuter⟩ := valid
    obtain ⟨after, stepped, built, tables, candidate⟩ := listen_step consistent.built fuel phase
    have same (id : Nat) : (after.cells id).value = (system.world.cells id).value := tables.keeps.values id
    have undisturbed : Undisturbed system.world after := (openGate_undisturbed _).trans (tables_undisturbed tables)
    have evolves : Evolves system { system with world := after } := ⟨Nat.le_refl _, fun _ calm => ⟨calm, same 0⟩⟩
    refine ⟨_, stepped, (consistent.undisturbed built undisturbed evolves rfl rfl).setCall
      ⟨known, ⟨⟨inner, rfl⟩, fun current calm => (congrArg asSource (same 0)).trans (fromOuter current calm)⟩, candidate⟩ ?_⟩
    rintro gate ⟨⟩ other _ opened
    exact Nat.lt_irrefl _ (consistent.gate_known opened)
  | store needed seen new => exact ⟨_, store_step phase, store_consistent consistent phase⟩
  | read source =>
    rw [phase] at valid
    obtain ⟨inner, rfl⟩ := valid
    exact ⟨_, read_step phase, consistent.setCall trivial (none_opened rfl)⟩
  | done value => exact absurd phase (unfinished value)

/-- The second half of `set` ends. -/
theorem notify_consistent (fuel : Nat) (consistent : Consistent system) {setter cell : Nat} (waiting : system.pending setter = some cell) :
    ∃ after, World.notify (fuel + 1) (.cell cell) system.world = .ok () after ∧
      step (fuel + 1) (.notify setter) system = some { system with
        world := after
        pending := Function.update system.pending setter none
        notified := if cell = 0 then system.notified + 1 else system.notified } ∧
      Consistent { system with
        world := after
        pending := Function.update system.pending setter none
        notified := if cell = 0 then system.notified + 1 else system.notified } := by
  obtain ⟨after, notified, built, _⟩ := consistent.built.notify fuel cell
  have steady := (notify_ok notified).1.steady
  refine ⟨after, notified, by simp only [step, waiting, notified, finished, Option.map_some], ?_⟩
  refine consistent.undisturbed built (steady_undisturbed steady) ⟨?_, fun same calm => ?_⟩ rfl rfl
  · simp only
    split <;> omega
  · have inner : cell ≠ 0 := by
      rintro rfl
      simp at same
    refine ⟨fun other outer => ?_, steady.values 0⟩
    by_cases equal : other = setter
    · rw [equal, waiting] at outer
      exact inner (Option.some.inj outer)
    · exact calm other (by simpa [Function.update_of_ne equal] using outer)

theorem listen_consistent (fuel : Nat) (consistent : Consistent system) (user : Nat) :
    ∃ after, flattened.listen (fuel + 1) (.user user) system.world = .ok () after ∧
      step (fuel + 1) (.listen user) system = some { system with world := after } ∧
      Consistent { system with world := after } := by
  obtain ⟨after, listened, built⟩ := consistent.built.listenUser fuel user
  obtain ⟨tables, _⟩ := listen_ok consistent.built.valid.opened listened
  refine ⟨after, listened, by simp only [step, listened, finished, Option.map_some], ?_⟩
  exact consistent.undisturbed built (tables_undisturbed tables)
    ⟨Nat.le_refl _, fun _ calm => ⟨calm, tables.keeps.values 0⟩⟩ rfl rfl

theorem step_consistent (consistent : Consistent system) {action : Action T} {next : System T}
    (stepped : step (fuel + 1) action system = some next) : Consistent next := by
  cases action with
  | get call =>
    by_cases finished : ∃ value, system.calls call = .done value
    · obtain ⟨value, finished⟩ := finished
      simp [step, finished, advance] at stepped
    · obtain ⟨_, same, kept⟩ := get_consistent fuel consistent fun value done => finished ⟨value, done⟩
      rw [stepped] at same
      cases same
      exact kept
  | replace setter change =>
    simp only [step] at stepped
    split at stepped
    · cases stepped
    next free =>
      cases stepped
      exact replace_consistent consistent free change
  | notify setter =>
    cases waiting : system.pending setter with
    | none => simp [step, waiting] at stepped
    | some cell =>
      obtain ⟨_, _, same, kept⟩ := notify_consistent fuel consistent waiting
      rw [stepped] at same
      cases same
      exact kept
  | listen user =>
    obtain ⟨_, _, same, kept⟩ := listen_consistent fuel consistent user
    rw [stepped] at same
    cases same
    exact kept
  | die user =>
    cases stepped
    exact die_consistent consistent user

theorem new_consistent {inner : Nat} {data : Nat → T} {alive : Nat → Bool} {world : World (Value T)}
    (created : create (fuel + 1) inner data alive = some world) : Consistent (System.new world) := by
  obtain ⟨made, same, built, core, _⟩ := @create_returns _ fuel _ inner data alive
  rw [created] at same
  cases same
  refine ⟨built, Nat.le_refl _, fun outer state found => ?_, fun _ => trivial, nofun⟩
  simp only [System.new, core] at found
  cases found

theorem run_consistent {first last : System T} {allowed : Action T → System T → Prop}
    (run : Reaches (step (fuel + 1)) allowed first last) (consistent : Consistent first) : Consistent last :=
  run.invariant (fun _ _ _ _ stepped consistent => step_consistent consistent stepped) consistent

end Kept
end Nosy.Sources.FlattenedThreads
